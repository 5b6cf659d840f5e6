import StrongAuth.Proofs.Store.Operations
import StrongAuth.Samples

set_option autoImplicit false

namespace StrongAuth

namespace Store

theorem Operation.newId?_other {op : Operation} {payment : Bool} {i : String}
    (own : op.newId? payment = some i) : op.newId? (!payment) = none := by
  cases op <;> cases payment <;> simp_all [newId?, newConsentId?, newPaymentId?]

theorem Operation.newConsentId?_eq_some {op : Operation} {i : String}
    (h : op.newId? false = some i) : ∃ d, op = .insertConsent d ∧ d.id = i := by
  cases op with
  | insertConsent d => exact ⟨d, rfl, Option.some.inj h⟩
  | _ => cases h

theorem Operation.newPaymentId?_eq_some {op : Operation} {i : String}
    (h : op.newId? true = some i) : ∃ q, op = .insertPayment q ∧ q.id = i := by
  cases op with
  | insertPayment q => exact ⟨q, rfl, Option.some.inj h⟩
  | _ => cases h

namespace Ledger

def has (l : Ledger) (payment : Bool) (id : String) : Bool :=
  if payment then (l.payments id).isSome else (l.consents id).isSome

variable {shares : Bool} {payment : Bool} {id : String}

theorem has_enter (l : Ledger) (op : Operation) :
    (l.enter shares op).has payment id =
      (op.newId? payment == some id || l.has payment id) := by
  cases op with
  | insertConsent d =>
    cases payment with
    | true => rfl
    | false =>
      by_cases here : id = d.id
      · simp [has, enter, withConsent, here, Operation.newId?, Operation.newConsentId?,
          Consent.ofDraft]
      · have other : d.id ≠ id := fun e => here e.symm
        simp [has, enter, withConsent, here, other, Operation.newId?, Operation.newConsentId?,
          Consent.ofDraft]
  | insertPayment q =>
    cases payment with
    | false => rfl
    | true =>
      by_cases here : id = q.id
      · simp [has, enter, withPayment, here, Operation.newId?, Operation.newPaymentId?]
      · have other : q.id ≠ id := fun e => here e.symm
        simp [has, enter, withPayment, here, other, Operation.newId?, Operation.newPaymentId?]
  | saveOrder i order => cases payment <;> simp [has, enter, withOrder, Operation.newId?,
      Operation.newConsentId?, Operation.newPaymentId?]
  | _ => cases payment <;> rfl

theorem has_foldl (ops : List Operation) (l : Ledger) :
    (ops.foldl (enter shares) l).has payment id =
      ((ops.any fun op => op.newId? payment == some id) || l.has payment id) := by
  induction ops generalizing l with
  | nil => rfl
  | cons op ops ih =>
    rw [List.foldl_cons, ih, has_enter, List.any_cons]
    cases op.newId? payment == some id <;> simp

theorem psus_foldl (ops : List Operation) (l : Ledger) (p : Purpose) (i : String) :
    (ops.foldl (enter shares) l).psus p i =
      l.psus p i ++ ops.flatMap (Operation.filed shares p i) := by
  induction ops generalizing l with
  | nil => exact (List.append_nil _).symm
  | cons op ops ih =>
    rw [List.foldl_cons, ih, List.flatMap_cons, ← List.append_assoc]
    rfl

end Ledger

end Store

namespace Backend
open StrongAuth.Store

variable {b : Backend}

theorem psusOf_of_isEmpty (h : b.isEmpty = true) (p : Purpose) (i : String) : b.psusOf p i = [] := by
  cases b with
  | memory s =>
    simp only [isEmpty, Bool.and_eq_true, List.isEmpty_iff] at h
    simp [psusOf, MemoryStore.psusOf, MemoryStore.findConsent, MemoryStore.findPayment, h]
  | tables t =>
    simp only [isEmpty, Bool.and_eq_true, List.isEmpty_iff] at h
    simp [psusOf, TableStore.psusOf, h]

theorem fresh_of_accepted {op : Operation} {payment : Bool} {i : String}
    (accepted : (op.perform b).1.isOk = true) (new : op.newId? payment = some i) :
    b.ledger.has payment i = false := by
  cases op with
  | insertConsent d =>
    cases payment with
    | true => cases new
    | false =>
      cases new
      have missing := fresh_of_insertConsent ((isOk_map _ _).symm.trans accepted)
      simp [Ledger.has, missing]
  | insertPayment q =>
    cases payment with
    | false => cases new
    | true =>
      cases new
      have missing := fresh_of_insertPayment ((isOk_map _ _).symm.trans accepted)
      simp [Ledger.has, missing]
  | _ => cases payment <;> cases new

theorem newIds_accepted (h : b.IsIntact) (payment : Bool) (ops : List Operation) :
    ((accepted b ops).filterMap (Operation.newId? payment)).Nodup ∧
      ∀ i ∈ (accepted b ops).filterMap (Operation.newId? payment),
        b.ledger.has payment i = false := by
  induction ops generalizing b with
  | nil => exact ⟨List.nodup_nil, nofun⟩
  | cons op ops ih =>
    obtain ⟨unique, fresh⟩ := ih (isIntact_perform h op)
    have step := (ledger_perform h.payments op).2
    rw [accepted_cons]
    split
    · next answered =>
      rw [Ledger.after, if_pos answered] at step
      simp only [step, Ledger.has_enter, Bool.or_eq_false_iff] at fresh
      cases new : op.newId? payment with
      | none =>
        rw [List.filterMap_cons_none new]
        exact ⟨unique, fun i hi => (fresh i hi).2⟩
      | some i =>
        rw [List.filterMap_cons_some new, List.nodup_cons, List.forall_mem_cons]
        refine ⟨⟨fun again => ?_, unique⟩, fresh_of_accepted answered new, fun j hj => (fresh j hj).2⟩
        have taken := (fresh i again).1
        rw [new, beq_self_eq_true] at taken
        cases taken
    · next refused =>
      rw [Ledger.after, if_neg refused] at step
      rw [step] at fresh
      exact ⟨unique, fresh⟩

theorem has_of_accepted (h : b.IsIntact) {ops : List Operation} {op : Operation}
    (mem : op ∈ accepted b ops) {payment : Bool} {i : String} (new : op.newId? payment = some i) :
    (performed b ops).ledger.has payment i = true := by
  rw [ledger_performed h, Ledger.has_foldl, Bool.or_eq_true, List.any_eq_true]
  exact .inl ⟨op, mem, by simp [new]⟩

theorem psusOf_performed (h : b.IsIntact) (ops : List Operation) (p : Purpose) (i : String) :
    (performed b ops).psusOf p i =
      b.psusOf p i ++ (accepted b ops).flatMap (Operation.filed b.sharesPsus p i) := by
  rw [← ledger_psus, ledger_performed h, Ledger.psus_foldl, ledger_psus]

/-- The PSUs that are listed under an id are those of the insertion, unless the tables file those of
the other sort with them. -/
theorem psusOf_performed_iff (new : b.isEmpty = true) {ops : List Operation} {op : Operation}
    (mem : op ∈ accepted b ops) {p : Purpose} {i : String} (own : op.newId? p.isPayment = some i) :
    (performed b ops).psusOf p i = op.newPsus ↔ (b.sharesPsus = true →
      ∀ other ∈ accepted b ops, other.newId? (!p.isPayment) = some i → other.newPsus = []) := by
  have intact := isIntact_of_isEmpty new
  obtain ⟨early, late, split⟩ := List.append_of_mem mem
  -- Ids are unique within a sort, so around the insertion only the other sort can file anything.
  have only : ∀ other ∈ early ++ late, other.newId? p.isPayment ≠ some i := by
    have unique := (newIds_accepted intact p.isPayment ops).1
    rw [split, List.filterMap_append, List.filterMap_cons_some own,
      List.perm_middle.nodup_iff, List.nodup_cons, ← List.filterMap_append] at unique
    exact fun other there same => unique.1 (List.mem_filterMap.mpr ⟨other, there, same⟩)
  have around : (performed b ops).psusOf p i = op.newPsus ↔
      ∀ other ∈ early ++ late, other.filed b.sharesPsus p i = [] := by
    rw [psusOf_performed intact, psusOf_of_isEmpty new, split, List.nil_append, List.flatMap_append,
      List.flatMap_cons, Operation.filed_own own]
    simp only [List.mem_append, or_imp, forall_and, ← List.flatMap_eq_nil_iff]
    constructor
    · intro same
      have lengths := congrArg List.length same
      simp only [List.length_append] at lengths
      exact ⟨List.eq_nil_of_length_eq_zero (by omega), List.eq_nil_of_length_eq_zero (by omega)⟩
    · rintro ⟨before, after⟩
      rw [before, after, List.nil_append, List.append_nil]
  rw [around]
  have here : op.newId? (!p.isPayment) ≠ some i := by
    rw [Operation.newId?_other own]
    exact nofun
  constructor
  · intro silent shares other there same
    have elsewhere : other ∈ early ++ late := by
      rw [split, List.mem_append, List.mem_cons] at there
      rcases there with there | rfl | there
      · exact List.mem_append_left _ there
      · exact absurd same here
      · exact List.mem_append_right _ there
    have nothing := silent other elsewhere
    rwa [Operation.filed_other (only other elsewhere), if_pos ⟨shares, same⟩] at nothing
  · intro silent other there
    have mem : other ∈ accepted b ops := by
      rw [split]
      rcases List.mem_append.mp there with there | there
      · exact List.mem_append_left _ there
      · exact List.mem_append_right _ (List.mem_cons_of_mem _ there)
    rw [Operation.filed_other (only other there)]
    split
    · next shared => exact silent shared.1 other mem shared.2
    · rfl

end Backend

namespace Store

/-- A consent or payment that was inserted is found with its own PSUs, if and only if the store keeps
the two sorts apart or nothing of the other sort lists anybody under the same id. -/
theorem psu_lists_kept_iff (b : Backend) (new : b.isEmpty = true) (calm : b.isCalm = true)
    (ops : List Operation) :
    (∀ d, .insertConsent d ∈ accepted b ops →
      ∃ c, Store.consent (performed b ops) d.id = .ok (some c) ∧
        (c.psus = d.psus ↔ (b.sharesPsus = true →
          ∀ q, .insertPayment q ∈ accepted b ops → q.id = d.id → q.psus = []))) ∧
    (∀ q, .insertPayment q ∈ accepted b ops →
      ∃ r, Store.payment (performed b ops) q.id = .ok (some r) ∧
        (r.psus = q.psus ↔ (b.sharesPsus = true →
          ∀ d, .insertConsent d ∈ accepted b ops → d.id = q.id → d.psus = []))) := by
  have intact := Backend.isIntact_of_isEmpty new
  have after := Backend.isIntact_performed intact ops
  have quiet := Backend.isCalm_performed intact calm ops
  refine ⟨fun d mem => ?_, fun q mem => ?_⟩
  · have there : (performed b ops).ledger.has false d.id = true :=
      Backend.has_of_accepted intact mem rfl
    simp only [Ledger.has, Backend.ledger_consents, Option.isSome_map] at there
    obtain ⟨c, found⟩ := Option.isSome_iff_exists.mp there
    have read := Backend.consent_of_calm quiet d.id
    rw [found] at read
    refine ⟨c, read, ?_⟩
    rw [((Backend.consent_ok read).2 .account rfl).2]
    refine (Backend.psusOf_performed_iff new mem (p := .account) rfl).trans ?_
    refine forall_congr' fun _ => ⟨fun silent q there same => ?_, fun silent other there same => ?_⟩
    · exact silent _ there (congrArg some same)
    · obtain ⟨q, rfl, here⟩ := Operation.newPaymentId?_eq_some same
      exact silent q there here
  · have there : (performed b ops).ledger.has true q.id = true :=
      Backend.has_of_accepted intact mem rfl
    simp only [Ledger.has, Backend.ledger_payments, Option.isSome_map] at there
    obtain ⟨r, found⟩ := Option.isSome_iff_exists.mp there
    have read := Backend.payment_of_calm after.payments quiet q.id
    rw [found] at read
    refine ⟨r, read, ?_⟩
    rw [((Backend.payment_ok read).2 .initiation rfl).2]
    refine (Backend.psusOf_performed_iff new mem (p := .initiation) rfl).trans ?_
    refine forall_congr' fun _ => ⟨fun silent d there same => ?_, fun silent other there same => ?_⟩
    · exact silent _ there (congrArg some same)
    · obtain ⟨d, rfl, here⟩ := Operation.newConsentId?_eq_some same
      exact silent d there here

theorem distinct_ids_keep_psus :
    Samples.tables.isEmpty = true ∧ Samples.tables.isCalm = true ∧
      ∃ c, Store.consent (performed Samples.tables (Samples.insertions "consent" "payment"))
        "consent" = .ok (some c) ∧ c.psus = Samples.psus ["anna"] := by
  have all : accepted Samples.tables (Samples.insertions "consent" "payment") =
      Samples.insertions "consent" "payment" := rfl
  refine ⟨rfl, rfl, ?_⟩
  obtain ⟨c, read, kept⟩ := (psu_lists_kept_iff Samples.tables rfl rfl
    (Samples.insertions "consent" "payment")).1 (Samples.consent "consent" ["anna"] false)
    (by rw [all]; exact List.mem_cons_self)
  refine ⟨c, read, kept.mpr fun _ q there same => ?_⟩
  rw [all, Samples.insertions, List.mem_cons, List.mem_singleton] at there
  rcases there with there | there
  · cases there
  · cases there
    exact absurd same (by decide)

theorem shared_id_merges_psus :
    accepted Samples.tables (Samples.insertions "shared" "shared") =
        Samples.insertions "shared" "shared" ∧
      (∃ c, Store.consent (performed Samples.tables (Samples.insertions "shared" "shared"))
        "shared" = .ok (some c) ∧ c.psus = Samples.psus ["anna", "berta"]) ∧
      ∃ q, Store.payment (performed Samples.tables (Samples.insertions "shared" "shared"))
        "shared" = .ok (some q) ∧ q.psus = Samples.psus ["anna", "berta"] :=
  ⟨rfl, ⟨_, rfl, rfl⟩, ⟨_, rfl, rfl⟩⟩

end Store

end StrongAuth
