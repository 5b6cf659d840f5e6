import StrongAuth.Proofs.Store.Backend
import StrongAuth.Proofs.Store.Lookups
import StrongAuth.Store.Operation

set_option autoImplicit false

namespace StrongAuth
open StrongAuth.Store

namespace Store

theorem accepted_append {σ : Type} [Store σ] (s : σ) (xs ys : List Operation) :
    accepted s (xs ++ ys) = accepted s xs ++ accepted (performed s xs) ys := by
  induction xs generalizing s with
  | nil => rfl
  | cons op xs ih =>
    rw [List.cons_append, accepted_cons, accepted_cons, ih]
    split <;> rfl

theorem accepted_sublist {σ : Type} [Store σ] (s : σ) (ops : List Operation) :
    (accepted s ops).Sublist ops := by
  induction ops generalizing s with
  | nil => exact .slnil
  | cons op ops ih =>
    rw [accepted_cons]
    split
    · exact (ih _).cons_cons op
    · exact (ih _).cons op

theorem find?_replaced {α : Type} {key : α → String} {id : String} {a b : α} {l : List α}
    (found : (l.find? fun x => key x == id) = some a) (same : key b = id) :
    ((l.map fun x => if key x == id then b else x).find? fun x => key x == id) = some b := by
  have here : (key b == id) = true := beq_iff_eq.mpr same
  induction l with
  | nil => cases found
  | cons x l ih =>
    rw [List.find?_cons] at found
    rw [List.map_cons, List.find?_cons]
    split at found
    · next this =>
      rw [if_pos this, here]
    · next other =>
      rw [if_neg (Bool.eq_false_iff.mp other), other]
      exact ih found

theorem Parents.status_put {parents : Parents} {p : Purpose} {i : String} {m : Parent.Summary}
    {st : Parent.Status} (there : parents p i = some m) (sort : st.concerns p = true) :
    parents.put i st p i = some { m with status := st } := by
  rw [Parents.put, if_pos ⟨rfl, sort⟩, there]
  rfl

end Store

namespace MemoryStore

variable {s t : MemoryStore} {id : String} {version : Int} {u : Authorisation.Update}
  {a written : Authorisation}

def SameLookups (s t : MemoryStore) : Prop :=
  t.authorisations = s.authorisations ∧ t.failReads = s.failReads

theorem SameLookups.authorisation (h : SameLookups s t) : t.authorisation = s.authorisation := by
  funext id
  simp only [MemoryStore.authorisation, findAuthorisation, h.1, h.2]

theorem SameLookups.trans {r : MemoryStore} (h : SameLookups s t) (k : SameLookups t r) :
    SameLookups s r :=
  ⟨k.1.trans h.1, k.2.trans h.2⟩

theorem sameLookups_putParentStatus (s : MemoryStore) (id : String) (st : Parent.Status) :
    SameLookups s (s.putParentStatus id st) := by
  cases st with
  | consent st =>
    simp only [putParentStatus, putConsentStatus]
    split <;> exact ⟨rfl, rfl⟩
  | payment st =>
    simp only [putParentStatus, putPaymentStatus]
    split <;> exact ⟨rfl, rfl⟩

theorem sameLookups_settleParent (s : MemoryStore) (a : Authorisation) :
    SameLookups s (s.settleParent a) := by
  unfold settleParent
  split
  · exact s.sameLookups_putParentStatus _ _
  · exact ⟨rfl, rfl⟩

theorem sameLookups_writeUpdate (s : MemoryStore) (a : Authorisation) (u : Authorisation.Update) :
    SameLookups (s.modifyAuthorisation a.id fun _ => a.apply u) (s.writeUpdate a u).2 := by
  have advanced : SameLookups (s.modifyAuthorisation a.id fun _ => a.apply u) (s.advanced a u) :=
    sameLookups_settleParent _ (a.apply u)
  rw [writeUpdate_eq]
  split
  · exact advanced.trans (sameLookups_putParentStatus _ _ _)
  · exact advanced

theorem summary?_of_hasParent {st : Parent.Status} {p : Purpose}
    (there : s.hasParent id st = .ok ()) (sort : st.concerns p = true) :
    ∃ m, s.summary? p id = some m := by
  cases st with
  | consent status =>
    have account : p.isPayment = false := by simpa [Parent.Status.concerns] using sort
    cases found : s.findConsent id with
    | none => simp [hasParent, found] at there
    | some c => exact ⟨_, by rw [summary?, account, found]; rfl⟩
  | payment status =>
    have payment : p.isPayment = true := sort
    cases found : s.findPayment id with
    | none => simp [hasParent, found] at there
    | some q => exact ⟨_, by rw [summary?, payment, found]; rfl⟩

theorem status_of_writeUpdate {st : Parent.Status} {p : Purpose}
    (reported : u.parentStatus = some st) (there : s.hasParent a.parentId st = .ok ())
    (sort : st.concerns p = true) :
    ∃ m, (s.writeUpdate a u).2.summary? p a.parentId = some m ∧ m.status = st := by
  rw [← s.hasParent_advanced a u] at there
  obtain ⟨m, found⟩ := summary?_of_hasParent there sort
  refine ⟨{ m with status := st }, ?_, rfl⟩
  rw [writeUpdate_eq, reported]
  change ((s.advanced a u).putParentStatus a.parentId st).summary? p a.parentId = _
  rw [summary?_putParentStatus]
  exact Parents.status_put found sort

theorem updateAuthorisation_written (found : s.findAuthorisation id = some a)
    (wrote : s.updateAuthorisation id version u = (.ok written, t)) :
    s.checkParentStatus a.parentId u.parentStatus = (.ok (), s) ∧ t = (s.writeUpdate a u).2 := by
  obtain ⟨b, there, -, checked, wrote⟩ := updateAuthorisation_steps wrote
  obtain rfl := Option.some.inj (found.symm.trans there)
  exact ⟨checked, (congrArg Prod.snd wrote).symm⟩

theorem updateAuthorisation_replaces (found : s.findAuthorisation id = some a)
    (wrote : s.updateAuthorisation id version u = (.ok written, t)) :
    t.failReads = s.failReads ∧
      t.authorisations = s.authorisations.map fun x => if x.id == id then a.apply u else x := by
  have named : a.id = id := by simpa using List.find?_some found
  obtain ⟨-, rfl⟩ := updateAuthorisation_written found wrote
  have after := s.sameLookups_writeUpdate a u
  refine ⟨after.2, ?_⟩
  rw [after.1, modifyAuthorisation, named]

theorem updateAuthorisation_found (found : s.findAuthorisation id = some a)
    (wrote : s.updateAuthorisation id version u = (.ok written, t)) :
    t.failReads = s.failReads ∧ t.findAuthorisation id = some (a.apply u) ∧
      ∀ st p, u.parentStatus = some st → st.concerns p = true →
        ∃ m, t.summary? p a.parentId = some m ∧ m.status = st := by
  have named : a.id = id := by simpa using List.find?_some found
  obtain ⟨reads, replaced⟩ := updateAuthorisation_replaces found wrote
  refine ⟨reads, ?_, fun st p reported sort => ?_⟩
  · rw [findAuthorisation, replaced]
    exact find?_replaced found named
  · obtain ⟨accepted, rfl⟩ := updateAuthorisation_written found wrote
    refine status_of_writeUpdate reported ?_ sort
    rw [reported] at accepted
    unfold checkParentStatus at accepted
    dsimp only at accepted
    split at accepted
    · cases accepted
    · exact (Prod.mk.inj accepted).1

theorem sameLookups_of_refused {e : StoreError}
    (refused : s.updateAuthorisation id version u = (.error e, t)) : SameLookups s t := by
  rcases updateAuthorisation_refused refused with rfl | ⟨-, rfl⟩ | ⟨-, rfl⟩ <;> exact ⟨rfl, rfl⟩

end MemoryStore

namespace TableStore

variable {s t : TableStore} {id : String} {version : Int} {u : Authorisation.Update}
  {a written : Authorisation}

theorem settleParent_rows (h : s.settleParent a = .ok t) :
    t.authorisations = s.authorisations ∧ t.isClosed = s.isClosed := by
  unfold settleParent at h
  split at h
  · obtain ⟨status, -, put⟩ := bind_eq_ok h
    obtain ⟨rows, closed, -⟩ := putOptionalStatus_ok put
    exact ⟨rows, closed⟩
  · cases h
    exact ⟨rfl, rfl⟩

theorem status_of_putParentStatus {st : Parent.Status} {p : Purpose}
    (put : s.putParentStatus id st = .ok t) (sort : st.concerns p = true) :
    ∃ m, t.summary? p id = some m ∧ m.status = st := by
  have found : ∃ m, s.summary? p id = some m := by
    cases st with
    | consent status =>
      have account : p.isPayment = false := by simpa [Parent.Status.concerns] using sort
      cases row : s.consents.find? fun r => r.id == id with
      | none => simp [putParentStatus, putConsentStatus, writeConsent, row] at put
      | some r => exact ⟨_, by rw [summary?, account, row]; rfl⟩
    | payment status =>
      have payment : p.isPayment = true := sort
      cases row : s.payments.find? fun r => r.id == id with
      | none => simp [putParentStatus, putPaymentStatus, writePayment, row] at put
      | some r => exact ⟨_, by rw [summary?, payment, row]; rfl⟩
  obtain ⟨m, found⟩ := found
  obtain ⟨-, -, -, parents⟩ := putParentStatus_ok put
  refine ⟨{ m with status := st }, ?_, rfl⟩
  rw [parents]
  exact Parents.status_put found sort

/-- The tables after a transaction: the row is rewritten and can be read, what follows for the parent
is written, and then what was reported. -/
theorem transact_written (found : s.readAuthorisation id = .ok (some a))
    (wrote : s.transact id version u = .ok (written, t)) :
    ∃ r s₁, (s.authorisations.find? fun r => r.id == id) = some r ∧ r.read = .ok a ∧
      (r.apply u).read = .ok (a.apply u) ∧
      (s.modifyRow id fun r => r.apply u).settleParent (a.apply u) = .ok s₁ ∧
      s₁.putOptionalStatus a.parentId u.parentStatus = .ok t := by
  obtain ⟨r, b, s₁, row, read, -, reread, rfl, settled, put⟩ := transact_steps wrote
  rw [readAuthorisation, row] at found
  obtain ⟨c, read', same⟩ := map_eq_ok found
  obtain rfl := Option.some.inj same
  obtain rfl := Except.ok.inj (read.symm.trans read')
  exact ⟨r, s₁, row, read, reread, settled, put⟩

theorem transact_found (found : s.readAuthorisation id = .ok (some a))
    (wrote : s.transact id version u = .ok (written, t)) :
    t.isClosed = s.isClosed ∧ t.readAuthorisation id = .ok (some (a.apply u)) ∧
      ∀ st p, u.parentStatus = some st → st.concerns p = true →
        ∃ m, t.summary? p a.parentId = some m ∧ m.status = st := by
  obtain ⟨r, s₁, row, read, readBack, settled, put⟩ := transact_written found wrote
  obtain ⟨rows, closed⟩ := settleParent_rows settled
  obtain ⟨rows', closed', -⟩ := putOptionalStatus_ok put
  refine ⟨closed'.trans closed, ?_, fun st p reported sort => ?_⟩
  · have there := find?_rewritten AuthorisationRow.id (fun r => r.apply u) (fun _ => rfl)
      s.authorisations id id
    rw [row] at there
    rw [readAuthorisation, rows', rows, modifyRow, there]
    simp only [Option.map_some, if_true, readBack]
    rfl
  · rw [reported] at put
    exact status_of_putParentStatus put sort

theorem updateAuthorisation_found (opened : ¬s.isClosed = true)
    (found : s.readAuthorisation id = .ok (some a))
    (wrote : s.updateAuthorisation id version u = (.ok written, t)) :
    t.isClosed = s.isClosed ∧ t.readAuthorisation id = .ok (some (a.apply u)) ∧
      ∀ st p, u.parentStatus = some st → st.concerns p = true →
        ∃ m, t.summary? p a.parentId = some m ∧ m.status = st := by
  unfold updateAuthorisation writing at wrote
  rw [if_neg opened] at wrote
  split at wrote
  · next transacted =>
    obtain ⟨-, rfl⟩ := Prod.mk.inj wrote
    exact transact_found found transacted
  · cases wrote

end TableStore

namespace Backend

variable {s t : Backend} {id : String} {version : Int} {u : Authorisation.Update}
  {a written : Authorisation}

/-- An update that is accepted is found afterwards, and so is its parent with the status that it
reports. -/
theorem updateAuthorisation_found (found : Store.authorisation s id = .ok (some a))
    (wrote : Store.updateAuthorisation s id version u = (.ok written, t)) :
    Store.authorisation t id = .ok (some (a.apply u)) ∧
      ∀ st p, u.parentStatus = some st → st.concerns p = true →
        ∃ m, t.summary? p a.parentId = some m ∧ m.status = st := by
  cases s with
  | memory m =>
    obtain ⟨m', rfl, inner⟩ := onWrite_memory wrote
    change m.authorisation id = .ok (some a) at found
    unfold MemoryStore.authorisation at found
    split at found
    · cases found
    next readable =>
    obtain ⟨reads, there, status⟩ :=
      MemoryStore.updateAuthorisation_found (Except.ok.inj found) inner
    refine ⟨?_, status⟩
    change m'.authorisation id = _
    rw [MemoryStore.authorisation, reads, readable, there]
  | tables m =>
    obtain ⟨m', rfl, inner⟩ := onWrite_tables wrote
    change m.reading (m.readAuthorisation id) = .ok (some a) at found
    unfold TableStore.reading at found
    split at found
    · cases found
    next opened =>
    obtain ⟨closed, there, status⟩ := TableStore.updateAuthorisation_found opened found inner
    refine ⟨?_, status⟩
    change m'.reading (m'.readAuthorisation id) = _
    rw [TableStore.reading, closed, if_neg opened, there]

theorem authorisation_of_refused {e : StoreError}
    (refused : Store.updateAuthorisation s id version u = (.error e, t)) :
    Store.authorisation t = Store.authorisation s := by
  cases s with
  | memory m =>
    obtain ⟨m', rfl, inner⟩ := onWrite_memory refused
    exact (MemoryStore.sameLookups_of_refused inner).authorisation
  | tables m =>
    obtain ⟨m', rfl, inner⟩ := onWrite_tables refused
    obtain rfl := TableStore.updateAuthorisation_error inner
    rfl

end Backend

end StrongAuth
