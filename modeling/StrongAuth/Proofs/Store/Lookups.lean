import StrongAuth.Proofs.Json.Orders
import StrongAuth.Proofs.Store.Memory
import StrongAuth.Proofs.Store.Tables

set_option autoImplicit false

namespace StrongAuth

namespace TableStore

theorem column_order (o : Order) : column Order.ofJson? o.toJson.write = .ok o := by
  rw [column_write Order.ofJson? o.toJson_isWritten, Order.ofJson?_toJson]

end TableStore

namespace PaymentRow
open StrongAuth.TableStore

theorem withPsus_ofPayment (p : Payment) : (ofPayment p).withPsus p.psus = .ok p := by
  have order : optionalColumn Order.ofJson? (p.order.map fun o => o.toJson.write) = .ok p.order := by
    cases p.order with
    | none => rfl
    | some o =>
      simp only [Option.map_some, optionalColumn, column_order]
      rfl
  unfold withPsus ofPayment
  simp only [order]
  rfl

variable {r : PaymentRow} {psus : List Psu} {p : Payment}

theorem withPsus_status_eq (st : Payment.Status) (r : PaymentRow) (psus : List Psu) :
    { r with status := st }.withPsus psus =
      (r.withPsus psus).map fun q => { q with status := st } := by
  unfold withPsus
  cases TableStore.optionalColumn Order.ofJson? r.order <;> rfl

theorem withPsus_status (h : r.withPsus psus = .ok p) (status : Payment.Status) :
    { r with status }.withPsus psus = .ok { p with status } := by
  rw [withPsus_status_eq, h]
  rfl

theorem withPsus_psus (h : r.withPsus psus = .ok p) (others : List Psu) :
    r.withPsus others = .ok { p with psus := others } := by
  unfold withPsus at h ⊢
  obtain ⟨order, column, built⟩ := Store.bind_eq_ok h
  cases built
  rw [column]
  rfl

theorem withPsus_order (h : r.withPsus psus = .ok p) (o : Order) :
    { r with order := some o.toJson.write }.withPsus psus = .ok { p with order := some o } := by
  unfold withPsus at h ⊢
  obtain ⟨order, column, built⟩ := Store.bind_eq_ok h
  cases built
  simp only [optionalColumn, column_order]
  rfl

end PaymentRow

namespace TableStore

variable {t : TableStore}

theorem psusOf_filePsus_eq (t : TableStore) (id : String) (psus : List Psu) (i : String) :
    (t.filePsus id psus).psusOf i = t.psusOf i ++ if i = id then psus else [] := by
  by_cases here : i = id
  · subst here
    simp [psusOf, filePsus, List.filter_append, List.filter_map, Function.comp_def]
  · have other : (id == i) = false := by simpa using fun e => here e.symm
    simp [psusOf, filePsus, List.filter_append, List.filter_map, Function.comp_def, other, here]

theorem psusOf_filePsus_other {id i : String} (elsewhere : i ≠ id) (psus : List Psu) :
    (t.filePsus id psus).psusOf i = t.psusOf i := by
  rw [psusOf_filePsus_eq, if_neg elsewhere, List.append_nil]

theorem readConsent_putConsentStatus (t : TableStore) (id i : String) (st : Consent.Status) :
    (t.putConsentStatus id st).2.readConsent i =
      (t.readConsent i).map fun c => if i = id then { c with status := st } else c := by
  unfold putConsentStatus writeConsent
  have rows := Store.find?_rewritten ConsentRow.id (fun r => { r with status := st })
    (fun _ => rfl) t.consents id i
  cases found : t.consents.find? fun r => r.id == id with
  | none =>
    by_cases here : i = id
    · simp [readConsent, here, found]
    · simp [here]
  | some r =>
    change (List.find? _ (t.consents.map _)).map _ = _
    rw [rows]
    simp only [readConsent, Option.map_map]
    refine congrArg (fun f => Option.map f _) (funext fun r => ?_)
    by_cases here : i = id <;> simp [here, ConsentRow.withPsus, psusOf]

theorem putConsentStatus_missing {id : String} (read : t.readConsent id = none)
    (st : Consent.Status) : t.putConsentStatus id st = (.error (.unknownConsent id), t) := by
  rw [putConsentStatus, writeConsent, Option.map_eq_none_iff.mp read]

theorem putConsentStatus_found {id : String} {c : Consent} (read : t.readConsent id = some c)
    (st : Consent.Status) : (t.putConsentStatus id st).1 = .ok { c with status := st } := by
  obtain ⟨r, row, rfl⟩ := Option.map_eq_some_iff.mp read
  rw [putConsentStatus, writeConsent, row]
  rfl

theorem exists_putConsentStatus_eq (t : TableStore) (id : String) (st : Consent.Status) :
    ∃ consents, (t.putConsentStatus id st).2 = { t with consents } := by
  unfold putConsentStatus writeConsent
  split <;> exact ⟨_, rfl⟩

theorem putConsentStatus_frame (t : TableStore) (id : String) (st : Consent.Status) :
    (t.putConsentStatus id st).2.isClosed = t.isClosed ∧
      (t.putConsentStatus id st).2.authorisations = t.authorisations ∧
      (t.putConsentStatus id st).2.readPayment = t.readPayment ∧
      (t.putConsentStatus id st).2.psusOf = t.psusOf := by
  unfold putConsentStatus writeConsent
  split <;> exact ⟨rfl, rfl, rfl, rfl⟩

theorem readConsent_filePsus {id : String} (missing : t.readConsent id = none) (psus : List Psu)
    (i : String) : (t.filePsus id psus).readConsent i = t.readConsent i := by
  by_cases here : i = id
  · subst here
    rw [missing]
    exact Option.map_eq_none_iff.mpr (Option.map_eq_none_iff.mp missing)
  · simp only [readConsent, psusOf_filePsus_other here]
    rfl

theorem readPayment_filePsus {id : String} (missing : t.readPayment id = .ok none)
    (psus : List Psu) (i : String) : (t.filePsus id psus).readPayment i = t.readPayment i := by
  by_cases here : i = id
  · subst here
    rw [missing]
    exact readPayment_none_iff.mpr (readPayment_none_iff (s := t) |>.mp missing)
  · simp only [readPayment, psusOf_filePsus_other here]
    rfl

theorem readConsent_inserted {r : ConsentRow} (missing : t.readConsent r.id = none)
    (psus : List Psu) (i : String) :
    ({ t with consents := t.consents ++ [r] }.filePsus r.id psus).readConsent i =
      if i = r.id then some (r.withPsus (t.psusOf i ++ psus)) else t.readConsent i := by
  have row : (t.consents ++ [r]).find? (fun q => q.id == i) = if i = r.id then some r
      else t.consents.find? fun q => q.id == i :=
    Store.find?_append_new ConsentRow.id (Option.map_eq_none_iff.mp missing) i
  unfold readConsent
  rw [psusOf_filePsus_eq, filePsus, row]
  by_cases here : i = r.id
  · simp only [here, if_true, Option.map_some]
    rfl
  · simp only [here, if_false, List.append_nil]
    rfl

theorem readPayment_inserted {r : PaymentRow} (missing : t.readPayment r.id = .ok none)
    (psus : List Psu) (i : String) :
    ({ t with payments := t.payments ++ [r] }.filePsus r.id psus).readPayment i =
      if i = r.id then (r.withPsus (t.psusOf i ++ psus)).map some else t.readPayment i := by
  have row : (t.payments ++ [r]).find? (fun q => q.id == i) = if i = r.id then some r
      else t.payments.find? fun q => q.id == i :=
    Store.find?_append_new PaymentRow.id (readPayment_none_iff.mp missing) i
  unfold readPayment
  rw [psusOf_filePsus_eq, filePsus, row]
  by_cases here : i = r.id
  · simp only [here, if_true]
    rfl
  · simp only [here, if_false, List.append_nil]
    rfl

section Rewrite
variable {id i : String} {f : PaymentRow → PaymentRow} {g : Payment → Payment}

theorem readPayment_writePayment (keeps : ∀ r, (f r).id = r.id)
    (follows : ∀ r psus q, r.withPsus psus = .ok q → (f r).withPsus psus = .ok (g q))
    {x : Option Payment} (read : t.readPayment i = .ok x) :
    (t.writePayment id f).2.readPayment i = .ok (x.map fun q => if i = id then g q else q) := by
  have rows := Store.find?_rewritten PaymentRow.id f keeps t.payments id i
  unfold writePayment
  cases found : t.payments.find? fun r => r.id == id with
  | none =>
    cases x with
    | none => exact read
    | some q =>
      obtain ⟨r, row, -⟩ := readPayment_some_iff.mp read
      have elsewhere : i ≠ id := by
        rintro rfl
        rw [found] at row
        cases row
      simpa [elsewhere] using read
  | some _ =>
    cases x with
    | none =>
      refine readPayment_none_iff.mpr (rows.trans ?_)
      rw [readPayment_none_iff.mp read]
      rfl
    | some q =>
      obtain ⟨r, row, built⟩ := readPayment_some_iff.mp read
      refine readPayment_some_iff.mpr ⟨if i = id then f r else r, ?_, ?_⟩
      · refine rows.trans ?_
        rw [row]
        rfl
      · change (if i = id then f r else r).withPsus (t.psusOf i) = _
        split
        · exact follows r _ q built
        · exact built

theorem writePayment_missing (read : t.readPayment id = .ok none) :
    t.writePayment id f = (.error (.unknownPayment id), t) := by
  rw [writePayment, readPayment_none_iff.mp read]

theorem writePayment_found
    (follows : ∀ r psus q, r.withPsus psus = .ok q → (f r).withPsus psus = .ok (g q))
    {q : Payment} (read : t.readPayment id = .ok (some q)) : (t.writePayment id f).1 = .ok (g q) := by
  obtain ⟨r, row, built⟩ := readPayment_some_iff.mp read
  rw [writePayment, row]
  exact follows r _ q built

theorem exists_writePayment_eq (t : TableStore) (id : String) (f : PaymentRow → PaymentRow) :
    ∃ payments, (t.writePayment id f).2 = { t with payments } := by
  unfold writePayment
  split <;> exact ⟨_, rfl⟩

theorem writePayment_frame (t : TableStore) (id : String) (f : PaymentRow → PaymentRow) :
    (t.writePayment id f).2.isClosed = t.isClosed ∧
      (t.writePayment id f).2.authorisations = t.authorisations ∧
      (t.writePayment id f).2.readConsent = t.readConsent ∧
      (t.writePayment id f).2.psusOf = t.psusOf := by
  unfold writePayment
  split <;> exact ⟨rfl, rfl, rfl, rfl⟩

end Rewrite

end TableStore

namespace MemoryStore

theorem findPayment_putConsentStatus (m : MemoryStore) (id : String) (st : Consent.Status) :
    (m.putConsentStatus id st).findPayment = m.findPayment := by
  unfold putConsentStatus
  split <;> rfl

theorem findConsent_putPaymentStatus (m : MemoryStore) (id : String) (st : Payment.Status) :
    (m.putPaymentStatus id st).findConsent = m.findConsent := by
  unfold putPaymentStatus
  split <;> rfl

variable {m : MemoryStore}

theorem findConsent_inserted {c : Consent} (missing : m.findConsent c.id = none) (i : String) :
    { m with consents := m.consents ++ [c] : MemoryStore }.findConsent i =
      if i = c.id then some c else m.findConsent i := Store.find?_append_new Consent.id missing i

theorem findPayment_inserted {p : Payment} (missing : m.findPayment p.id = none) (i : String) :
    { m with payments := m.payments ++ [p] : MemoryStore }.findPayment i =
      if i = p.id then some p else m.findPayment i := Store.find?_append_new Payment.id missing i

theorem hasParent_putParentStatus (m : MemoryStore) (id i : String) (st written : Parent.Status) :
    (m.putParentStatus id written).hasParent i st = m.hasParent i st := by
  cases written with
  | consent written =>
    have consents := m.findConsent_putConsentStatus id i written
    have payments := m.findPayment_putConsentStatus id written
    cases st <;> simp [putParentStatus, hasParent, consents, payments]
  | payment written =>
    have consents := m.findConsent_putPaymentStatus id written
    have payments := m.findPayment_putPaymentStatus id i written
    cases st <;> simp [putParentStatus, hasParent, consents, payments]

theorem checkParentStatus_of_calm (h : m.isCalm = true) (id : String)
    (reported : Option Parent.Status) : m.checkParentStatus id reported =
      (match reported with
        | none => .ok ()
        | some st => m.hasParent id st, m) := by
  unfold checkParentStatus
  cases reported with
  | none => rfl
  | some st => rw [((isCalm_iff m).mp h).2.2]

theorem hasParent_settleParent (m : MemoryStore) (a : Authorisation) (i : String)
    (st : Parent.Status) : (m.settleParent a).hasParent i st = m.hasParent i st := by
  unfold settleParent
  split
  · exact m.hasParent_putParentStatus _ i st _
  · rfl

def advanced (m : MemoryStore) (a : Authorisation) (u : Authorisation.Update) : MemoryStore :=
  { m.modifyAuthorisation a.id fun _ => a.apply u with
    writes := { m.writes with authorisationUpdates := m.writes.authorisationUpdates + 1 }
    : MemoryStore }.settleParent (a.apply u)

theorem writeUpdate_eq (m : MemoryStore) (a : Authorisation) (u : Authorisation.Update) :
    m.writeUpdate a u = (a.apply u, match u.parentStatus with
      | some st => (m.advanced a u).putParentStatus a.parentId st
      | none => m.advanced a u) := by
  unfold writeUpdate advanced
  cases u.parentStatus <;> rfl

theorem hasParent_advanced (m : MemoryStore) (a : Authorisation) (u : Authorisation.Update)
    (i : String) (st : Parent.Status) : (m.advanced a u).hasParent i st = m.hasParent i st := by
  unfold advanced
  exact hasParent_settleParent _ _ i st

/-- Progress has no effect on a parent that is not there. -/
theorem hasParent_of_statusByProgress {a : Authorisation} {st : Parent.Status}
    (h : m.statusByProgress a = some st) : m.hasParent a.parentId st = .ok () := by
  unfold statusByProgress at h
  cases kind : a.purpose with
  | account =>
    simp only [kind] at h
    obtain ⟨c, found, after⟩ := Option.bind_eq_some_iff.mp h
    obtain ⟨_, -, rfl⟩ := Option.map_eq_some_iff.mp after
    simp [hasParent, found]
  | initiation =>
    simp only [kind] at h
    obtain ⟨q, found, after⟩ := Option.bind_eq_some_iff.mp h
    obtain ⟨_, -, rfl⟩ := Option.map_eq_some_iff.mp after
    simp [hasParent, found]
  | cancellation => simp [kind] at h

end MemoryStore

end StrongAuth
