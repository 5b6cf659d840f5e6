import StrongAuth.Proofs.Store.Operations
import StrongAuth.Proofs.Store.Views

set_option autoImplicit false

namespace StrongAuth
open StrongAuth.Store

namespace Backend

variable {b b' : Backend} {i : String} {p : Purpose}

def isOpen : Backend → Bool
  | .memory _ => true
  | .tables s => !s.isClosed

/-- Nothing is different but the order beside the payload of this payment. -/
inductive SavesOrder (i : String) (order : Order) : Backend → Backend → Prop where
  | memory {s : MemoryStore} {writes : Writes} : SavesOrder i order (.memory s) (.memory { s with
      payments := s.payments.map fun q => if q.id == i then { q with order := some order } else q
      writes })
  | tables {s : TableStore} : SavesOrder i order (.tables s) (.tables { s with
      payments := s.payments.map fun r =>
        if r.id == i then { r with order := some order.toJson.write } else r })

/-- Nothing is different but this authorisation, which comes after all others. -/
inductive Adds (a : Authorisation) : Backend → Backend → Prop where
  | memory {s : MemoryStore} {writes : Writes} : Adds a (.memory s) (.memory { s with
      authorisations := s.authorisations ++ [a]
      writes })
  | tables {s : TableStore} {r : AuthorisationRow} (read : r.read = .ok a) :
      Adds a (.tables s) (.tables { s with authorisations := s.authorisations ++ [r] })

theorem isOpen_of_consent (read : (Store.consent b i).isOk = true) : b.isOpen = true := by
  cases b with
  | memory s => rfl
  | tables s =>
    change (s.reading _).isOk = true at read
    unfold TableStore.reading at read
    split at read
    · cases read
    · next opened => simpa [isOpen] using opened

theorem isOpen_of_payment (read : (Store.payment b i).isOk = true) : b.isOpen = true := by
  cases b with
  | memory s => rfl
  | tables s =>
    change (s.reading _).isOk = true at read
    unfold TableStore.reading at read
    split at read
    · cases read
    · next opened => simpa [isOpen] using opened

theorem saveOrder_saves {q : Payment} (read : Store.payment b i = .ok (some q)) (order : Order) :
    ∃ s, Store.saveOrder b i order = (.ok { q with order := some order }, s) ∧
      SavesOrder i order b s := by
  cases b with
  | memory s =>
    have found : s.findPayment i = some q := Except.ok.inj read
    change ∃ t, (Backend.memory s).onWrite (Store.saveOrder · i order) _ = _ ∧ _
    simp only [onWrite, Store.saveOrder, MemoryStore.saveOrder, found]
    exact ⟨_, rfl, .memory⟩
  | tables s =>
    have opened : s.isClosed = false := by
      simpa [isOpen] using isOpen_of_payment (b := .tables s) (by rw [read]; rfl)
    have found : s.readPayment i = .ok (some q) :=
      (TableStore.reading_of_open opened _).symm.trans read
    obtain ⟨r, row, built⟩ := TableStore.readPayment_some_iff.mp found
    change ∃ t, (Backend.tables s).onWrite _ (Store.saveOrder · i order) = _ ∧ _
    simp only [onWrite, Store.saveOrder, TableStore.saveOrder, TableStore.writing_of_open opened,
      TableStore.writePayment, row, PaymentRow.withPsus_order built order]
    exact ⟨_, rfl, .tables⟩

theorem SavesOrder.kept {order : Order} (h : SavesOrder i order b b') :
    b'.records = b.records ∧ b'.labels = b.labels ∧ b'.isOpen = b.isOpen ∧
      b'.nextId = b.nextId ∧ Store.authorisationsOf b' = Store.authorisationsOf b := by
  cases h <;> exact ⟨rfl, rfl, rfl, rfl, rfl⟩

theorem insertAuthorisation_adds (opened : b.isOpen = true) (d : Authorisation.Draft) :
    ∃ s, Store.insertAuthorisation b d = (.ok (Authorisation.ofDraft b.nextId d), s) ∧
      Adds (Authorisation.ofDraft b.nextId d) b s := by
  cases b with
  | memory s => exact ⟨_, rfl, .memory⟩
  | tables s =>
    have writes : s.isClosed = false := by simpa [isOpen] using opened
    change ∃ t, (Backend.tables s).onWrite _ (TableStore.insertAuthorisation · d) = _ ∧ _
    simp only [onWrite, TableStore.insertAuthorisation_eq, TableStore.writing_of_open writes]
    exact ⟨_, rfl, .tables (AuthorisationRow.read_ofDraft _ _ d)⟩

namespace Adds

variable {a : Authorisation} (h : Adds a b b')
include h

theorem records : b'.records = b.records ++ [a] := by
  cases h with
  | memory => rfl
  | tables read => simp [Backend.records, TableStore.records, read, Except.toOption]

theorem labels : b'.labels = b.labels ++ [a.label] := by
  cases h with
  | memory => exact List.map_append
  | tables read =>
    rw [TableStore.label_of_read read]
    exact List.map_append

end Adds

/-- The next id is not in use, not even by an authorisation that cannot be read. -/
theorem nextId_unused (b : Backend) : b.nextId ∉ b.labels.map Label.id := by
  have ids : (b.labels.map Label.id) = match b with
      | .memory s => s.authorisations.map Authorisation.id
      | .tables s => s.authorisations.map AuthorisationRow.id := by
    cases b <;> exact List.map_map
  rw [ids]
  cases b with
  | memory s => exact s.ids.fresh _
  | tables s => exact s.ids.fresh _

theorem IsKeyed.added {a : Authorisation} (keyed : b.IsKeyed) (h : Adds a b b')
    (next : a.id = b.nextId) : b'.IsKeyed := by
  rw [IsKeyed, h.labels, List.map_append, List.nodup_append]
  refine ⟨keyed, List.nodup_singleton _, fun i used j own same => b.nextId_unused ?_⟩
  rw [← next, ← show j = a.id from List.mem_singleton.mp own, ← same]
  exact used

end Backend

end StrongAuth
