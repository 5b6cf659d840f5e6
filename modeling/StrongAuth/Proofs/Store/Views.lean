import Mathlib.Data.List.Nodup
import StrongAuth.Proofs.Store.Backend
import StrongAuth.Proofs.Store.Footprint

set_option autoImplicit false

namespace StrongAuth
open StrongAuth.Store

namespace Label

/-- Among these labels the id stands for the authorisation with this label, and no other. -/
def IsNamed (l : Label) (labels : List Label) : Prop :=
  ∀ x ∈ labels, x.id = l.id → x = l

theorem IsNamed.of_mem {labels : List Label} {l : Label} (keys : (labels.map Label.id).Nodup)
    (there : l ∈ labels) : l.IsNamed labels :=
  fun _ hx same => List.inj_on_of_nodup_map keys hx there same

theorem IsNamed.labels {α : Type} {label : α → Label} {l : Label} {xs ys : List α}
    (named : l.IsNamed (xs.map label))
    (h : Rewritten (fun x y => l.MayRewrite (label x) (label y)) xs ys) :
    ys.map label = xs.map label := by
  unfold Rewritten at h
  induction h with
  | nil => rfl
  | @cons x y xs ys first rest ih =>
    have others := ih fun z hz => named z (List.mem_cons_of_mem _ hz)
    rw [List.map_cons, List.map_cons, others]
    rcases first with rfl | may
    · rfl
    · have own := named (label x) List.mem_cons_self may.named
      rw [may.same own, own]

end Label

namespace MemoryStore

variable {k : Parent.Key} {l : Label} {s t r : MemoryStore}

/-- The stores differ at most in this parent and its authorisations. -/
structure SameBut (k : Parent.Key) (s t : MemoryStore) : Prop where
  authorisations : SameOff Authorisation.label (fun x => x.parentKey = k)
    s.authorisations t.authorisations
  consents : SameOff Consent.id (fun i => k = ⟨false, i⟩) s.consents t.consents
  payments : SameOff Payment.id (fun i => k = ⟨true, i⟩) s.payments t.payments
  failReads : t.failReads = s.failReads
  failUpdate : t.failUpdate = s.failUpdate
  failParentStatus : t.failParentStatus = s.failParentStatus

namespace SameBut

theorem symm (h : SameBut k s t) : SameBut k t s :=
  ⟨h.authorisations.symm, h.consents.symm, h.payments.symm, h.failReads.symm, h.failUpdate.symm,
    h.failParentStatus.symm⟩

theorem trans (h : SameBut k s t) (m : SameBut k t r) : SameBut k s r :=
  ⟨h.authorisations.trans m.authorisations, h.consents.trans m.consents,
    h.payments.trans m.payments, m.failReads.trans h.failReads, m.failUpdate.trans h.failUpdate,
    m.failParentStatus.trans h.failParentStatus⟩

variable (h : SameBut k s t)
include h

theorem findConsent {i : String} (apart : (⟨false, i⟩ : Parent.Key) ≠ k) :
    t.findConsent i = s.findConsent i :=
  h.consents.find?_eq (q := fun j => j == i) fun _ _ here off => apart (by
    rw [off, eq_of_beq here])

theorem findPayment {i : String} (apart : (⟨true, i⟩ : Parent.Key) ≠ k) :
    t.findPayment i = s.findPayment i :=
  h.payments.find?_eq (q := fun j => j == i) fun _ _ here off => apart (by
    rw [off, eq_of_beq here])

theorem findAuthorisation (named : l.IsNamed (s.authorisations.map Authorisation.label))
    (apart : l.parentKey ≠ k) : t.findAuthorisation l.id = s.findAuthorisation l.id := by
  refine h.authorisations.find?_eq (q := fun x => x.id == l.id) fun a ha here off => apart ?_
  rw [← named a.label (List.mem_map_of_mem ha) (eq_of_beq here)]
  exact off

theorem siblings {i : String} {p : Purpose} (apart : (⟨p.isPayment, i⟩ : Parent.Key) ≠ k) :
    t.siblings i p = s.siblings i p := by
  refine h.authorisations.filter_eq (q := fun x => x.parentId == i && x.purpose == p)
    fun a ha here off => apart ?_
  simp only [Bool.and_eq_true, beq_iff_eq] at here
  rw [← off, Label.parentKey, here.1, here.2]

theorem putParentStatus {st : Parent.Status} (sort : st.concerns l.purpose = true)
    (apart : l.parentKey ≠ k) :
    SameBut k (s.putParentStatus l.parentId st) (t.putParentStatus l.parentId st) := by
  cases st with
  | consent status =>
    have key : (⟨false, l.parentId⟩ : Parent.Key) ≠ k := by
      have account : l.purpose.isPayment = false := by simpa [Parent.Status.concerns] using sort
      rw [← account]
      exact apart
    simp only [MemoryStore.putParentStatus, putConsentStatus, h.findConsent key]
    split
    · exact h
    · exact ⟨h.authorisations, h.consents.map_at id l.parentId fun _ => rfl, h.payments,
        h.failReads, h.failUpdate, h.failParentStatus⟩
  | payment status =>
    have key : (⟨true, l.parentId⟩ : Parent.Key) ≠ k := by
      have payment : l.purpose.isPayment = true := sort
      rw [← payment]
      exact apart
    simp only [MemoryStore.putParentStatus, putPaymentStatus, h.findPayment key]
    split
    · exact h
    · exact ⟨h.authorisations, h.consents, h.payments.map_at id l.parentId fun _ => rfl,
        h.failReads, h.failUpdate, h.failParentStatus⟩

theorem statusByProgress {a : Authorisation} (apart : a.label.parentKey ≠ k) :
    t.statusByProgress a = s.statusByProgress a := by
  unfold MemoryStore.statusByProgress
  have siblings : t.siblings a.parentId a.purpose = s.siblings a.parentId a.purpose :=
    h.siblings apart
  cases kind : a.purpose with
  | account =>
    rw [Label.parentKey, Authorisation.label, kind] at apart
    rw [kind] at siblings
    simp only [h.findConsent apart, siblings]
  | initiation =>
    rw [Label.parentKey, Authorisation.label, kind] at apart
    rw [kind] at siblings
    simp only [h.findPayment apart, siblings]
  | cancellation => rfl

theorem settleParent {a : Authorisation} (apart : a.label.parentKey ≠ k) :
    SameBut k (s.settleParent a) (t.settleParent a) := by
  have follows := s.due_of_update a
  simp only [MemoryStore.settleParent, h.statusByProgress apart]
  split
  · next st due =>
    rw [due] at follows
    exact h.putParentStatus (l := a.label) follows.concerns.2 apart
  · exact h

theorem writeUpdate {a : Authorisation} {u : Authorisation.Update} (apart : a.label.parentKey ≠ k)
    (sort : ∀ st, u.parentStatus = some st → st.concerns a.purpose = true) :
    SameBut k (s.writeUpdate a u).2 (t.writeUpdate a u).2 := by
  have advanced : SameBut k (s.advanced a u) (t.advanced a u) := by
    refine settleParent ?_ apart
    exact ⟨h.authorisations.replace_at Label.id a.id (a.apply u), h.consents, h.payments,
      h.failReads, h.failUpdate, h.failParentStatus⟩
  rw [writeUpdate_eq, writeUpdate_eq]
  cases reported : u.parentStatus with
  | none => exact advanced
  | some st => exact advanced.putParentStatus (l := a.label) (sort st reported) apart

theorem checkParentStatus {a : Authorisation} {reported : Option Parent.Status}
    (apart : a.label.parentKey ≠ k)
    (sort : ∀ st, reported = some st → st.concerns a.purpose = true) :
    (t.checkParentStatus a.parentId reported).1 = (s.checkParentStatus a.parentId reported).1 ∧
      SameBut k (s.checkParentStatus a.parentId reported).2
        (t.checkParentStatus a.parentId reported).2 := by
  unfold MemoryStore.checkParentStatus
  cases reported with
  | none => exact ⟨rfl, h⟩
  | some st =>
    have there : t.hasParent a.parentId st = s.hasParent a.parentId st := by
      have concerns := sort st rfl
      cases st with
      | consent status =>
        have account : a.purpose.isPayment = false := by
          simpa [Parent.Status.concerns] using concerns
        rw [Label.parentKey, Authorisation.label, account] at apart
        simp only [hasParent, h.findConsent apart]
      | payment status =>
        have payment : a.purpose.isPayment = true := concerns
        rw [Label.parentKey, Authorisation.label, payment] at apart
        simp only [hasParent, h.findPayment apart]
    simp only [h.failParentStatus, there]
    split
    · exact ⟨rfl, h.authorisations, h.consents, h.payments, h.failReads, h.failUpdate, rfl⟩
    · exact ⟨rfl, h⟩

theorem updateAuthorisation (named : l.IsNamed (s.authorisations.map Authorisation.label))
    (apart : l.parentKey ≠ k) (version : Int) {u : Authorisation.Update}
    (sort : ∀ st, u.parentStatus = some st → st.concerns l.purpose = true) :
    (t.updateAuthorisation l.id version u).1 = (s.updateAuthorisation l.id version u).1 ∧
      SameBut k (s.updateAuthorisation l.id version u).2
        (t.updateAuthorisation l.id version u).2 := by
  unfold MemoryStore.updateAuthorisation
  rw [h.failUpdate, h.findAuthorisation named apart]
  cases s.failUpdate with
  | some e =>
    exact ⟨rfl, h.authorisations, h.consents, h.payments, h.failReads, rfl, h.failParentStatus⟩
  | none =>
    cases found : s.findAuthorisation l.id with
    | none => exact ⟨rfl, h⟩
    | some a =>
      have here : a.id = l.id := by simpa using List.find?_some found
      have own : a.label = l :=
        named a.label (List.mem_map_of_mem (List.mem_of_find?_eq_some found)) here
      subst own
      dsimp only
      cases writeConflict a version with
      | some e => exact ⟨rfl, h⟩
      | none =>
        obtain ⟨same, after⟩ := h.checkParentStatus apart sort
        cases checked : s.checkParentStatus a.parentId u.parentStatus with
        | mk x s₁ =>
          cases checked' : t.checkParentStatus a.parentId u.parentStatus with
          | mk y t₁ =>
            rw [checked, checked'] at same after
            obtain rfl : y = x := same
            cases y with
            | error e => exact ⟨rfl, after⟩
            | ok => exact ⟨by simp only [writeUpdate_eq], after.writeUpdate apart sort⟩

theorem saveOrder (cancels : l.purpose = .cancellation) (apart : l.parentKey ≠ k) (order : Order) :
    (t.saveOrder l.parentId order).1 = (s.saveOrder l.parentId order).1 ∧
      SameBut k (s.saveOrder l.parentId order).2 (t.saveOrder l.parentId order).2 := by
  rw [Label.parentKey, cancels] at apart
  unfold MemoryStore.saveOrder
  rw [h.findPayment apart]
  split
  · exact ⟨rfl, h⟩
  · exact ⟨rfl, h.authorisations, h.consents, h.payments.map_at id l.parentId fun _ => rfl,
      h.failReads, h.failUpdate, h.failParentStatus⟩

end SameBut

end MemoryStore

namespace TableStore

variable {k : Parent.Key} {l : Label} {s t r : TableStore}

structure SameBut (k : Parent.Key) (s t : TableStore) : Prop where
  authorisations : SameOff AuthorisationRow.label (fun x => x.parentKey = k)
    s.authorisations t.authorisations
  consents : SameOff ConsentRow.id (fun i => k = ⟨false, i⟩) s.consents t.consents
  payments : SameOff PaymentRow.id (fun i => k = ⟨true, i⟩) s.payments t.payments
  psus : t.psus = s.psus
  isClosed : t.isClosed = s.isClosed
  database : t.toDatabase = s.toDatabase

/-- Both transactions were given up for the same reason, or both came about, with results that are
related. -/
inductive Matches {α : Type} (related : α → α → Prop) :
    Except StoreError α → Except StoreError α → Prop where
  | error (e : StoreError) : Matches related (.error e) (.error e)
  | ok {x y : α} (results : related x y) : Matches related (.ok x) (.ok y)

theorem Matches.bind {α β : Type} {related : α → α → Prop} {related' : β → β → Prop}
    {x y : Except StoreError α} {f g : α → Except StoreError β} (h : Matches related x y)
    (further : ∀ a b, related a b → Matches related' (f a) (g b)) :
    Matches related' (x >>= f) (y >>= g) := by
  cases h with
  | error e => exact .error e
  | ok results => exact further _ _ results

namespace SameBut

theorem symm (h : SameBut k s t) : SameBut k t s :=
  ⟨h.authorisations.symm, h.consents.symm, h.payments.symm, h.psus.symm, h.isClosed.symm,
    h.database.symm⟩

theorem trans (h : SameBut k s t) (m : SameBut k t r) : SameBut k s r :=
  ⟨h.authorisations.trans m.authorisations, h.consents.trans m.consents,
    h.payments.trans m.payments, m.psus.trans h.psus, m.isClosed.trans h.isClosed,
    m.database.trans h.database⟩

variable (h : SameBut k s t)
include h

theorem consentRow {i : String} (apart : (⟨false, i⟩ : Parent.Key) ≠ k) :
    (t.consents.find? fun r => r.id == i) = s.consents.find? fun r => r.id == i :=
  h.consents.find?_eq (q := fun j => j == i) fun _ _ here off => apart (by
    rw [off, eq_of_beq here])

theorem paymentRow {i : String} (apart : (⟨true, i⟩ : Parent.Key) ≠ k) :
    (t.payments.find? fun r => r.id == i) = s.payments.find? fun r => r.id == i :=
  h.payments.find?_eq (q := fun j => j == i) fun _ _ here off => apart (by
    rw [off, eq_of_beq here])

theorem authorisationRow (named : l.IsNamed (s.authorisations.map AuthorisationRow.label))
    (apart : l.parentKey ≠ k) :
    (t.authorisations.find? fun r => r.id == l.id) =
      s.authorisations.find? fun r => r.id == l.id := by
  refine h.authorisations.find?_eq (q := fun x => x.id == l.id) fun r hr here off => apart ?_
  rw [← named r.label (List.mem_map_of_mem hr) (eq_of_beq here)]
  exact off

theorem psusOf (i : String) : t.psusOf i = s.psusOf i := by
  simp only [TableStore.psusOf, h.psus]

theorem readConsent {i : String} (apart : (⟨false, i⟩ : Parent.Key) ≠ k) :
    t.readConsent i = s.readConsent i := by
  simp only [TableStore.readConsent, h.consentRow apart, h.psusOf]

theorem readPayment {i : String} (apart : (⟨true, i⟩ : Parent.Key) ≠ k) :
    t.readPayment i = s.readPayment i := by
  simp only [TableStore.readPayment, h.paymentRow apart, h.psusOf]

theorem readSiblings {i : String} {p : Purpose} (apart : (⟨p.isPayment, i⟩ : Parent.Key) ≠ k) :
    t.readSiblings i p = s.readSiblings i p := by
  have rows : (t.authorisations.filter fun r => r.parentId == i && r.purpose == p) =
      s.authorisations.filter fun r => r.parentId == i && r.purpose == p := by
    refine h.authorisations.filter_eq (q := fun x => x.parentId == i && x.purpose == p)
      fun r hr here off => apart ?_
    simp only [Bool.and_eq_true, beq_iff_eq] at here
    rw [← off, Label.parentKey, here.1, here.2]
  rw [TableStore.readSiblings, TableStore.readSiblings, rows]

theorem putParentStatus {st : Parent.Status} (sort : st.concerns l.purpose = true)
    (apart : l.parentKey ≠ k) :
    Matches (SameBut k) (s.putParentStatus l.parentId st) (t.putParentStatus l.parentId st) := by
  cases st with
  | consent status =>
    have account : l.purpose.isPayment = false := by simpa [Parent.Status.concerns] using sort
    rw [Label.parentKey, account] at apart
    simp only [TableStore.putParentStatus, putConsentStatus, writeConsent, h.consentRow apart]
    cases s.consents.find? fun r => r.id == l.parentId with
    | none => exact .error _
    | some row => exact .ok ⟨h.authorisations, h.consents.map_at id l.parentId fun _ => rfl,
        h.payments, h.psus, h.isClosed, h.database⟩
  | payment status =>
    have payment : l.purpose.isPayment = true := sort
    rw [Label.parentKey, payment] at apart
    simp only [TableStore.putParentStatus, putPaymentStatus, writePayment, h.paymentRow apart,
      h.psusOf]
    cases s.payments.find? fun r => r.id == l.parentId with
    | none => exact .error _
    | some row =>
      dsimp only
      cases { row with status }.withPsus (s.psusOf l.parentId) with
      | error e => exact .error e
      | ok q => exact .ok ⟨h.authorisations, h.consents,
          h.payments.map_at id l.parentId fun _ => rfl, h.psus, h.isClosed, h.database⟩

theorem putOptionalStatus {reported : Option Parent.Status}
    (sort : ∀ st, reported = some st → st.concerns l.purpose = true) (apart : l.parentKey ≠ k) :
    Matches (SameBut k) (s.putOptionalStatus l.parentId reported)
      (t.putOptionalStatus l.parentId reported) := by
  cases reported with
  | none => exact .ok h
  | some st => exact h.putParentStatus (sort st rfl) apart

theorem statusByProgress {a : Authorisation} (apart : a.label.parentKey ≠ k) :
    t.statusByProgress a = s.statusByProgress a := by
  have siblings : t.readSiblings a.parentId a.purpose = s.readSiblings a.parentId a.purpose :=
    h.readSiblings apart
  unfold TableStore.statusByProgress
  cases kind : a.purpose with
  | account =>
    rw [Label.parentKey, Authorisation.label, kind] at apart
    rw [kind] at siblings
    simp only [h.readConsent apart, siblings]
  | initiation =>
    rw [Label.parentKey, Authorisation.label, kind] at apart
    rw [kind] at siblings
    simp only [h.readPayment apart, siblings]
  | cancellation => rfl

theorem settleParent {a : Authorisation} (apart : a.label.parentKey ≠ k) :
    Matches (SameBut k) (s.settleParent a) (t.settleParent a) := by
  unfold TableStore.settleParent
  rw [h.statusByProgress apart]
  split
  · cases progress : s.statusByProgress a with
    | error e => exact .error e
    | ok due =>
      exact h.putOptionalStatus (l := a.label) (concerns_of_statusByProgress progress) apart
  · exact .ok h

theorem finish {a : Authorisation} {reported : Option Parent.Status}
    (apart : a.label.parentKey ≠ k)
    (sort : ∀ st, reported = some st → st.concerns a.purpose = true) :
    Matches (fun x y => y.1 = x.1 ∧ SameBut k x.2 y.2)
      (do
        let s ← s.settleParent a
        let s ← s.putOptionalStatus a.parentId reported
        return (a, s))
      (do
        let t ← t.settleParent a
        let t ← t.putOptionalStatus a.parentId reported
        return (a, t)) := by
  refine (h.settleParent apart).bind fun s t same => ?_
  refine (same.putOptionalStatus (l := a.label) sort apart).bind fun s t same => ?_
  exact .ok ⟨rfl, same⟩

theorem transact (named : l.IsNamed (s.authorisations.map AuthorisationRow.label))
    (apart : l.parentKey ≠ k) (version : Int) {u : Authorisation.Update}
    (sort : ∀ st, u.parentStatus = some st → st.concerns l.purpose = true) :
    Matches (fun x y => y.1 = x.1 ∧ SameBut k x.2 y.2) (s.transact l.id version u)
      (t.transact l.id version u) := by
  unfold TableStore.transact
  rw [h.authorisationRow named apart]
  cases found : s.authorisations.find? fun r => r.id == l.id with
  | none => exact .error _
  | some row =>
    dsimp only
    cases read : row.read with
    | error e => exact .error e
    | ok a =>
      dsimp only [bind, Except.bind]
      cases writeConflict a version with
      | some e => exact .error e
      | none =>
        dsimp only
        cases readBack : (row.apply u).read with
        | error e => exact .error e
        | ok written =>
          have here : row.id = l.id := by simpa using List.find?_some found
          have own : row.label = l :=
            named row.label (List.mem_map_of_mem (List.mem_of_find?_eq_some found)) here
          have label : written.label = l := (label_of_read readBack).trans own
          subst label
          have rewritten : SameBut k (s.modifyRow written.label.id fun r => r.apply u)
              (t.modifyRow written.label.id fun r => r.apply u) :=
            ⟨h.authorisations.map_at Label.id _ fun _ => rfl, h.consents, h.payments, h.psus,
              h.isClosed, h.database⟩
          exact rewritten.finish apart sort

theorem reading {α : Type} {x y : Except StoreError α} (same : y = x) :
    t.reading y = s.reading x := by
  rw [TableStore.reading, TableStore.reading, h.isClosed, same]

theorem updateAuthorisation (named : l.IsNamed (s.authorisations.map AuthorisationRow.label))
    (apart : l.parentKey ≠ k) (version : Int) {u : Authorisation.Update}
    (sort : ∀ st, u.parentStatus = some st → st.concerns l.purpose = true) :
    (t.updateAuthorisation l.id version u).1 = (s.updateAuthorisation l.id version u).1 ∧
      SameBut k (s.updateAuthorisation l.id version u).2
        (t.updateAuthorisation l.id version u).2 := by
  have transacted := h.transact named apart version sort
  unfold TableStore.updateAuthorisation TableStore.writing
  rw [h.isClosed]
  split
  · exact ⟨rfl, h⟩
  · generalize s.transact l.id version u = x at transacted ⊢
    generalize t.transact l.id version u = y at transacted ⊢
    cases transacted with
    | error e => exact ⟨rfl, h⟩
    | ok results => exact ⟨congrArg Except.ok results.1, results.2⟩

theorem saveOrder (cancels : l.purpose = .cancellation) (apart : l.parentKey ≠ k) (order : Order) :
    (t.saveOrder l.parentId order).1 = (s.saveOrder l.parentId order).1 ∧
      SameBut k (s.saveOrder l.parentId order).2 (t.saveOrder l.parentId order).2 := by
  rw [Label.parentKey, cancels] at apart
  unfold TableStore.saveOrder TableStore.writing writePayment
  rw [h.isClosed, h.paymentRow apart]
  split
  · exact ⟨rfl, h⟩
  · split
    · exact ⟨rfl, h⟩
    · refine ⟨?_, h.authorisations, h.consents, h.payments.map_at id l.parentId fun _ => rfl,
        h.psus, rfl, h.database⟩
      simp only [h.psusOf]

end SameBut

end TableStore

namespace Backend

variable {k : Parent.Key} {l : Label} {s t r : Backend}

/-- The labels of all authorisations, those that cannot be read included. -/
def labels : Backend → List Label
  | .memory s => s.authorisations.map Authorisation.label
  | .tables s => s.authorisations.map AuthorisationRow.label

/-- No two authorisations have the same id. -/
def IsKeyed (b : Backend) : Prop := (b.labels.map Label.id).Nodup

theorem label_mem {id : String} {a : Authorisation} (found : s.authorisation? id = some a) :
    a.label ∈ s.labels := by
  cases s with
  | memory m => exact List.mem_map_of_mem (List.mem_of_find?_eq_some found)
  | tables m =>
    simp only [authorisation?, TableStore.readAuthorisation] at found
    split at found
    · cases found
    · next r row =>
      cases read : r.read with
      | error e =>
        rw [read] at found
        cases found
      | ok b =>
        rw [read] at found
        cases found
        rw [TableStore.label_of_read read]
        exact List.mem_map_of_mem (List.mem_of_find?_eq_some row)

theorem IsKeyed.named (keyed : s.IsKeyed) {id : String} {a : Authorisation}
    (found : s.authorisation? id = some a) : a.label.IsNamed s.labels :=
  .of_mem keyed (label_mem found)

theorem IsSound.isKeyed (sound : s.IsSound) : s.IsKeyed := by
  cases s with
  | memory m =>
    rw [IsKeyed, labels, List.map_map]
    exact sound
  | tables m =>
    rw [IsKeyed, labels, List.map_map]
    refine nodup_map_of_unique _ fun n k r q hr hq same => ?_
    obtain ⟨a, ha, readA⟩ := sound.1.record_of_row hr
    obtain ⟨b, hb, readB⟩ := sound.1.record_of_row hq
    refine sound.2.unique ha hb ?_
    rw [(TableStore.id_of_read readA).1, (TableStore.id_of_read readB).1]
    exact same

/-- The stores differ at most in this parent and its authorisations. -/
inductive SameBut (k : Parent.Key) : Backend → Backend → Prop where
  | memory {s t : MemoryStore} (h : s.SameBut k t) : SameBut k (.memory s) (.memory t)
  | tables {s t : TableStore} (h : s.SameBut k t) : SameBut k (.tables s) (.tables t)

/-- The authorisations, consents and payments of both stores are the same, record by record. -/
def SameRecords : Backend → Backend → Prop
  | .memory s, .memory t => t.authorisations = s.authorisations ∧ t.consents = s.consents ∧
      t.payments = s.payments
  | .tables s, .tables t => t = s
  | _, _ => False

/-- What an update touches is a difference in the parent of its authorisation, and in no other. -/
theorem Frame.sameBut (h : Frame l s t) (named : l.IsNamed s.labels)
    (calm : s.isCalm = true) : SameBut l.parentKey s t := by
  have rewritten {x y : Label} (there : x ∈ s.labels) (may : l.MayRewrite x y) :
      y = x ∧ x.parentKey = l.parentKey := by
    have own := named x there may.named
    rw [may.same own, own]
    exact ⟨rfl, rfl⟩
  cases h with
  | @memory s t h =>
    obtain ⟨reads, update, status⟩ := (MemoryStore.isCalm_iff s).mp calm
    obtain ⟨reads', update', status'⟩ := (MemoryStore.isCalm_iff t).mp (h.calm calm)
    refine .memory ⟨.of_rewritten h.authorisations ?_, .of_rewritten h.consents ?_,
      .of_rewritten h.payments ?_, reads'.trans reads.symm, update'.trans update.symm,
      status'.trans status.symm⟩
    · exact fun x hx y may => rewritten (List.mem_map_of_mem hx) may
    · rintro x - y ⟨account, own, status, rfl⟩
      exact ⟨rfl, by rw [Label.parentKey, account, own]⟩
    · rintro x - y ⟨payment, own, status, order, rfl, -⟩
      exact ⟨rfl, by rw [Label.parentKey, payment, own]⟩
  | @tables s t h =>
    refine .tables ⟨.of_rewritten h.authorisations ?_, .of_rewritten h.consents ?_,
      .of_rewritten h.payments ?_, h.psus, h.isClosed, h.database⟩
    · exact fun x hx y may => rewritten (List.mem_map_of_mem hx) may
    · rintro x - y ⟨account, own, status, rfl⟩
      exact ⟨rfl, by rw [Label.parentKey, account, own]⟩
    · rintro x - y ⟨payment, own, status, order, rfl, -⟩
      exact ⟨rfl, by rw [Label.parentKey, payment, own]⟩

theorem Frame.labels (h : Frame l s t) (named : l.IsNamed s.labels) : t.labels = s.labels := by
  cases h with
  | memory h => exact named.labels h.authorisations
  | tables h => exact named.labels h.authorisations

theorem Frame.isKeyed (h : Frame l s t) (named : l.IsNamed s.labels) (keyed : s.IsKeyed) :
    t.IsKeyed := by
  rw [IsKeyed, h.labels named]
  exact keyed

theorem Frame.isCalm (h : Frame l s t) (calm : s.isCalm = true) : t.isCalm = true := by
  cases h with
  | memory h => exact h.calm calm
  | tables h =>
    simp only [Backend.isCalm, h.isClosed]
    exact calm

theorem Frame.authorisation (h : Frame l s t) (calm : s.isCalm = true) {id : String}
    (other : id ≠ l.id) : Store.authorisation t id = Store.authorisation s id := by
  cases h with
  | @memory s t h =>
    have quiet := ((MemoryStore.isCalm_iff s).mp calm).1
    have quiet' := ((MemoryStore.isCalm_iff t).mp (h.calm calm)).1
    have agree : SameOff Authorisation.id (· = l.id) s.authorisations t.authorisations :=
      .of_rewritten h.authorisations fun x _ y may => ⟨may.id.trans may.named.symm, may.named⟩
    change t.authorisation id = s.authorisation id
    unfold MemoryStore.authorisation MemoryStore.findAuthorisation
    rw [quiet, quiet', agree.find?_eq (q := (· == id)) fun x _ here out =>
      other ((eq_of_beq here).symm.trans out)]
  | @tables s t h =>
    have agree : SameOff AuthorisationRow.id (· = l.id) s.authorisations t.authorisations :=
      .of_rewritten h.authorisations fun x _ y may => ⟨may.id.trans may.named.symm, may.named⟩
    change t.reading (t.readAuthorisation id) = s.reading (s.readAuthorisation id)
    unfold TableStore.reading TableStore.readAuthorisation
    rw [h.isClosed, agree.find?_eq (q := (· == id)) fun x _ here out =>
      other ((eq_of_beq here).symm.trans out)]

theorem SameRecords.refl (s : Backend) : SameRecords s s := by
  cases s with
  | memory s => exact ⟨rfl, rfl, rfl⟩
  | tables s => rfl

namespace SameBut

theorem symm (h : SameBut k s t) : SameBut k t s := by
  cases h with
  | memory h => exact .memory h.symm
  | tables h => exact .tables h.symm

theorem trans (h : SameBut k s t) (m : SameBut k t r) : SameBut k s r := by
  cases h with
  | memory h =>
    cases m with
    | memory m => exact .memory (h.trans m)
  | tables h =>
    cases m with
    | tables m => exact .tables (h.trans m)

theorem sameRecords {k' : Parent.Key} (h : SameBut k s t) (m : SameBut k' s t) (apart : k ≠ k') :
    SameRecords s t := by
  have labels (x : Label) : x.parentKey = k → x.parentKey ≠ k' := fun here there =>
    apart (here.symm.trans there)
  have keys (x : Parent.Key) : k = x → k' ≠ x := fun here there => apart (here.trans there.symm)
  cases h with
  | memory h =>
    cases m with
    | memory m =>
      exact ⟨h.authorisations.eq_of_disjoint m.authorisations labels,
        h.consents.eq_of_disjoint m.consents fun _ => keys _,
        h.payments.eq_of_disjoint m.payments fun _ => keys _⟩
  | @tables s t h =>
    cases m with
    | tables m =>
      have authorisations := h.authorisations.eq_of_disjoint m.authorisations labels
      have consents := h.consents.eq_of_disjoint m.consents fun _ => keys _
      have payments := h.payments.eq_of_disjoint m.payments fun _ => keys _
      obtain ⟨-, -, -, psus, isClosed, database⟩ := h
      obtain ⟨_, _, _, _, _, _⟩ := t
      subst authorisations consents payments psus isClosed database
      rfl

variable (h : SameBut k s t)
include h

theorem authorisation (named : l.IsNamed s.labels) (apart : l.parentKey ≠ k) :
    Store.authorisation t l.id = Store.authorisation s l.id := by
  cases h with
  | @memory s t h =>
    change t.authorisation l.id = s.authorisation l.id
    unfold MemoryStore.authorisation
    rw [h.failReads, h.findAuthorisation named apart]
  | tables h =>
    refine h.reading ?_
    unfold TableStore.readAuthorisation
    rw [h.authorisationRow named apart]

theorem authorisationsOf {i : String} {p : Purpose}
    (apart : (⟨p.isPayment, i⟩ : Parent.Key) ≠ k) :
    Store.authorisationsOf t i p = Store.authorisationsOf s i p := by
  cases h with
  | @memory s t h =>
    change t.authorisationsOf i p = s.authorisationsOf i p
    unfold MemoryStore.authorisationsOf
    rw [h.failReads, h.siblings apart]
  | tables h => exact h.reading (h.readSiblings apart)

theorem consent {i : String} (apart : (⟨false, i⟩ : Parent.Key) ≠ k) :
    Store.consent t i = Store.consent s i := by
  cases h with
  | memory h => exact congrArg Except.ok (h.findConsent apart)
  | tables h => exact h.reading (congrArg Except.ok (h.readConsent apart))

theorem payment {i : String} (apart : (⟨true, i⟩ : Parent.Key) ≠ k) :
    Store.payment t i = Store.payment s i := by
  cases h with
  | memory h => exact congrArg Except.ok (h.findPayment apart)
  | tables h => exact h.reading (h.readPayment apart)

theorem updateAuthorisation (named : l.IsNamed s.labels) (apart : l.parentKey ≠ k) (version : Int)
    {u : Authorisation.Update}
    (sort : ∀ st, u.parentStatus = some st → st.concerns l.purpose = true) :
    (Store.updateAuthorisation t l.id version u).1 =
        (Store.updateAuthorisation s l.id version u).1 ∧
      SameBut k (Store.updateAuthorisation s l.id version u).2
        (Store.updateAuthorisation t l.id version u).2 := by
  cases h with
  | memory h =>
    obtain ⟨answer, same⟩ := h.updateAuthorisation named apart version sort
    exact ⟨answer, .memory same⟩
  | tables h =>
    obtain ⟨answer, same⟩ := h.updateAuthorisation named apart version sort
    exact ⟨answer, .tables same⟩

theorem saveOrder (cancels : l.purpose = .cancellation) (apart : l.parentKey ≠ k) (order : Order) :
    (Store.saveOrder t l.parentId order).1 = (Store.saveOrder s l.parentId order).1 ∧
      SameBut k (Store.saveOrder s l.parentId order).2 (Store.saveOrder t l.parentId order).2 := by
  cases h with
  | memory h =>
    obtain ⟨answer, same⟩ := h.saveOrder cancels apart order
    exact ⟨answer, .memory same⟩
  | tables h =>
    obtain ⟨answer, same⟩ := h.saveOrder cancels apart order
    exact ⟨answer, .tables same⟩

end SameBut

end Backend

end StrongAuth
