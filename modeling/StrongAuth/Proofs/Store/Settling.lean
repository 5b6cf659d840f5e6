import StrongAuth.Proofs.Store.Replies
import StrongAuth.Proofs.Store.Views

set_option autoImplicit false

namespace StrongAuth
open StrongAuth.Store

namespace MemoryStore

variable {s t : MemoryStore} {id : String} {version : Int} {u : Authorisation.Update}
  {a written : Authorisation} {q : Payment}

theorem settleParent_payment (granted : a.status.isGranted = true) (initiates : a.purpose = .initiation)
    (payment : s.findPayment a.parentId = some q) :
    (s.settleParent a).findPayment a.parentId = some { q with
      status := (q.statusAfter ((Parent.payment q).progress
        (s.siblings a.parentId .initiation))).getD q.status } := by
  have progress : s.statusByProgress a = (q.statusAfter ((Parent.payment q).progress
      (s.siblings a.parentId .initiation))).map .payment := by
    simp only [statusByProgress, initiates, payment, Option.bind_some]
  unfold settleParent
  rw [if_pos granted, progress]
  cases q.statusAfter ((Parent.payment q).progress (s.siblings a.parentId .initiation)) with
  | none => exact payment
  | some st =>
    change (s.putPaymentStatus a.parentId st).findPayment a.parentId = _
    rw [findPayment_putPaymentStatus, payment, Option.map_some, if_pos rfl]
    rfl

theorem updateAuthorisation_settles (found : s.findAuthorisation id = some a)
    (wrote : s.updateAuthorisation id version u = (.ok written, t)) (silent : u.parentStatus = none)
    (granted : u.status.isGranted = true) (initiates : a.purpose = .initiation)
    (payment : s.findPayment a.parentId = some q) :
    t.findPayment a.parentId = some { q with
      status := (q.statusAfter ((Parent.payment q).progress
        (t.siblings a.parentId .initiation))).getD q.status } := by
  obtain ⟨-, rfl⟩ := updateAuthorisation_written found wrote
  have siblings : ((s.writeUpdate a u).2).siblings a.parentId .initiation =
      (s.modifyAuthorisation a.id fun _ => a.apply u).siblings a.parentId .initiation := by
    rw [MemoryStore.siblings, (s.sameLookups_writeUpdate a u).1]
    rfl
  rw [siblings, writeUpdate_eq, silent]
  exact settleParent_payment (a := a.apply u) granted initiates payment

end MemoryStore

namespace TableStore

variable {s t : TableStore} {id : String} {version : Int} {u : Authorisation.Update}
  {r : AuthorisationRow} {a written : Authorisation} {q : Payment}

theorem records_modifyRow (keyed : (s.authorisations.map AuthorisationRow.id).Nodup)
    (row : (s.authorisations.find? fun r => r.id == id) = some r) (read : r.read = .ok a)
    (reread : (r.apply u).read = .ok (a.apply u)) :
    (s.modifyRow id fun r => r.apply u).records =
      s.records.map fun x => if x.id == id then a.apply u else x := by
  have named : r.id = id := by simpa using List.find?_some row
  have there : r ∈ s.authorisations := List.mem_of_find?_eq_some row
  unfold records modifyRow
  rw [List.filterMap_map, List.map_filterMap]
  refine List.filterMap_congr fun x hx => ?_
  by_cases own : x.id = id
  · obtain rfl := List.inj_on_of_nodup_map keyed hx there (own.trans named.symm)
    simp only [Function.comp_apply, own, beq_self_eq_true, if_true, reread, read, Except.toOption,
      Option.map_some, (id_of_read read).1]
  · cases readX : x.read with
    | error e => simp [own, readX, Except.toOption]
    | ok b =>
      have other : b.id ≠ id := by
        rw [(id_of_read readX).1]
        exact own
      simp [own, other, readX, Except.toOption]

theorem transact_records (keyed : (s.authorisations.map AuthorisationRow.id).Nodup)
    (found : s.readAuthorisation id = .ok (some a))
    (wrote : s.transact id version u = .ok (written, t)) :
    t.records = s.records.map fun x => if x.id == id then a.apply u else x := by
  obtain ⟨r, s₁, row, read, reread, settled, put⟩ := transact_written found wrote
  obtain ⟨rows, -⟩ := settleParent_rows settled
  obtain ⟨rows', -, -⟩ := putOptionalStatus_ok put
  rw [← records_modifyRow keyed row read reread, records, rows', rows]
  rfl

theorem settleParent_payment (granted : a.status.isGranted = true) (initiates : a.purpose = .initiation)
    (payment : s.readPayment a.parentId = .ok (some q)) (settled : s.settleParent a = .ok t) :
    t.readPayment a.parentId = .ok (some { q with
      status := (q.statusAfter ((Parent.payment q).progress
        (s.records.filter (isSibling a.parentId .initiation)))).getD q.status }) := by
  unfold settleParent at settled
  rw [if_pos granted] at settled
  obtain ⟨status, progress, put⟩ := bind_eq_ok settled
  unfold statusByProgress at progress
  rw [initiates, payment] at progress
  obtain ⟨found, read, progress⟩ := bind_eq_ok progress
  obtain rfl := Except.ok.inj read
  obtain ⟨l, siblings, progress⟩ := bind_eq_ok progress
  rw [Parent.progress_perm (readSiblings_ok siblings)] at progress
  obtain rfl := Except.ok.inj progress
  cases after : q.statusAfter ((Parent.payment q).progress
      (s.records.filter (isSibling a.parentId .initiation))) with
  | none =>
    rw [after] at put
    cases put
    exact payment
  | some st =>
    rw [after] at put
    change s.putParentStatus a.parentId (.payment st) = .ok t at put
    have wrote : (s.putPaymentStatus a.parentId st).2.readPayment a.parentId = _ :=
      readPayment_writePayment (f := fun r => { r with status := st })
        (g := fun q => { q with status := st }) (fun _ => rfl)
        (fun r psus q built => PaymentRow.withPsus_status built st) payment
    rw [putPaymentStatus] at wrote
    simp only [putParentStatus, putPaymentStatus] at put
    split at put
    · next stored s₁ written =>
      obtain rfl := Except.ok.inj put
      rw [written] at wrote
      rw [wrote, Option.map_some, if_pos rfl]
      rfl
    · cases put

theorem transact_settles (found : s.readAuthorisation id = .ok (some a))
    (wrote : s.transact id version u = .ok (written, t)) (silent : u.parentStatus = none)
    (granted : u.status.isGranted = true) (initiates : a.purpose = .initiation)
    (payment : s.readPayment a.parentId = .ok (some q)) :
    t.readPayment a.parentId = .ok (some { q with
      status := (q.statusAfter ((Parent.payment q).progress
        (t.records.filter (isSibling a.parentId .initiation)))).getD q.status }) := by
  obtain ⟨r, s₁, row, read, reread, settled, put⟩ := transact_written found wrote
  rw [silent] at put
  cases put
  obtain ⟨rows, -⟩ := settleParent_rows settled
  have same : t.records = (s.modifyRow id fun r => r.apply u).records := by
    rw [records, rows]
    rfl
  rw [same]
  exact settleParent_payment (a := a.apply u) granted initiates payment settled

theorem transact_of_updateAuthorisation
    (wrote : s.updateAuthorisation id version u = (.ok written, t)) :
    s.transact id version u = .ok (written, t) := by
  unfold updateAuthorisation writing at wrote
  split at wrote
  · cases wrote
  · split at wrote
    · next transacted =>
      cases wrote
      exact transacted
    · cases wrote

end TableStore

namespace Backend

variable {s t : Backend} {id : String} {version : Int} {u : Authorisation.Update}
  {a written : Authorisation} {q : Payment}

theorem IsKeyed.record (keyed : s.IsKeyed) (found : Store.authorisation s id = .ok (some a)) :
    a ∈ s.records ∧ ∀ x ∈ s.records, x.id = id → x = a := by
  cases s with
  | memory m =>
    have there := authorisation?_of_ok found
    rw [IsKeyed, labels, List.map_map] at keyed
    have member : a ∈ m.authorisations := List.mem_of_find?_eq_some there
    exact ⟨member, fun x hx same =>
      List.inj_on_of_nodup_map keyed hx member (same.trans (id_of_found found).symm)⟩
  | tables m =>
    change m.reading (m.readAuthorisation id) = .ok (some a) at found
    unfold TableStore.reading at found
    split at found
    · cases found
    rw [IsKeyed, labels, List.map_map] at keyed
    unfold TableStore.readAuthorisation at found
    split at found
    · cases found
    next r row =>
    obtain ⟨b, read, same⟩ := map_eq_ok found
    obtain rfl := Option.some.inj same
    have there : r ∈ m.authorisations := List.mem_of_find?_eq_some row
    have named : r.id = id := by simpa using List.find?_some row
    refine ⟨List.mem_filterMap.mpr ⟨r, there, by rw [read]; rfl⟩, fun x hx same => ?_⟩
    obtain ⟨q, hq, readQ⟩ := List.mem_filterMap.mp hx
    cases readX : q.read with
    | error e =>
      rw [readX] at readQ
      cases readQ
    | ok y =>
      rw [readX] at readQ
      obtain rfl := Option.some.inj readQ
      have together : q.id = r.id := by
        rw [← (TableStore.id_of_read readX).1, same, named]
      obtain rfl := List.inj_on_of_nodup_map keyed hq there together
      exact Except.ok.inj (readX.symm.trans read)

theorem updateAuthorisation_replaces (keyed : s.IsKeyed)
    (found : Store.authorisation s id = .ok (some a))
    (wrote : Store.updateAuthorisation s id version u = (.ok written, t)) :
    t.records = s.records.map fun x => if x.id == id then a.apply u else x := by
  cases s with
  | memory m =>
    obtain ⟨m', rfl, inner⟩ := onWrite_memory wrote
    change m.authorisation id = .ok (some a) at found
    unfold MemoryStore.authorisation at found
    split at found
    · cases found
    · exact (MemoryStore.updateAuthorisation_replaces (Except.ok.inj found) inner).2
  | tables m =>
    obtain ⟨m', rfl, inner⟩ := onWrite_tables wrote
    change m.reading (m.readAuthorisation id) = .ok (some a) at found
    unfold TableStore.reading at found
    split at found
    · cases found
    rw [IsKeyed, labels, List.map_map] at keyed
    exact TableStore.transact_records keyed found (TableStore.transact_of_updateAuthorisation inner)

/-- An update that grants the initiation of a payment and reports no status leaves the payment with
the status that follows from its progress. -/
theorem updateAuthorisation_settles (found : Store.authorisation s id = .ok (some a))
    (wrote : Store.updateAuthorisation s id version u = (.ok written, t))
    (silent : u.parentStatus = none) (granted : u.status.isGranted = true)
    (initiates : a.purpose = .initiation) (payment : Store.payment s a.parentId = .ok (some q)) :
    Store.payment t a.parentId = .ok (some { q with
      status := (q.statusAfter ((Parent.payment q).progress
        (t.siblings a.parentId .initiation))).getD q.status }) := by
  cases s with
  | memory m =>
    obtain ⟨m', rfl, inner⟩ := onWrite_memory wrote
    change m.authorisation id = .ok (some a) at found
    unfold MemoryStore.authorisation at found
    split at found
    · cases found
    exact congrArg Except.ok (MemoryStore.updateAuthorisation_settles (Except.ok.inj found) inner
      silent granted initiates (Except.ok.inj payment))
  | tables m =>
    obtain ⟨m', rfl, inner⟩ := onWrite_tables wrote
    change m.reading (m.readAuthorisation id) = .ok (some a) at found
    unfold TableStore.reading at found
    split at found
    · cases found
    next opened =>
    change m.reading (m.readPayment a.parentId) = .ok (some q) at payment
    rw [TableStore.reading, if_neg opened] at payment
    obtain ⟨closed, -⟩ := TableStore.updateAuthorisation_found opened found inner
    have settled := TableStore.transact_settles found
      (TableStore.transact_of_updateAuthorisation inner) silent granted initiates payment
    change m'.reading (m'.readPayment a.parentId) = _
    rw [TableStore.reading, closed, if_neg opened, settled]
    rfl

end Backend

end StrongAuth
