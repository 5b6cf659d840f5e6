import StrongAuth.Proofs.Store.Additions
import StrongAuth.Proofs.Store.Drift

set_option autoImplicit false

namespace StrongAuth
open StrongAuth.Store StrongAuth.Backend

namespace Backend

/-- A payment that is to be cancelled has an order, or a payload that spells one. -/
def Spells (b : Backend) (p : Purpose) (i : String) : Prop :=
  p = .cancellation → ∀ q, Store.payment b i = .ok (some q) → ∃ order, q.orderOf = .ok order

/-- What a start has to read can be read: the parent, and if it is alive and needs a single PSU, its
authorisations. -/
structure Serves (b : Backend) (p : Purpose) (i : String) : Prop where
  consent : p.isPayment = false → (Store.consent b i).isOk = true
  payment : p.isPayment = true → (Store.payment b i).isOk = true
  siblings : ∀ m, b.summary? p i = some m → m.status.isTerminal = false → m.multilevel = false →
    (Store.authorisationsOf b i p).isOk = true

/-- The parent was looked up. A payment that is to be cancelled may have had its order saved. -/
def Looked (p : Purpose) (i : String) (b s : Backend) : Prop :=
  s = b ∨ p = .cancellation ∧ ∃ q order, Store.payment b i = .ok (some q) ∧ q.order = none ∧
    q.orderOf = .ok order ∧ SavesOrder i order b s

variable {b s : Backend} {p : Purpose} {i : String}

theorem Serves.isOpen (serves : b.Serves p i) : b.isOpen = true := by
  cases sort : p.isPayment with
  | false => exact isOpen_of_consent (serves.consent sort)
  | true => exact isOpen_of_payment (serves.payment sort)

theorem summary?_of_consent {x : Option Consent} (sort : p.isPayment = false)
    (read : Store.consent b i = .ok x) :
    b.summary? p i = x.map fun c => (Parent.consent c).summary := by
  cases x with
  | some c => exact ((consent_ok read).2 p sort).1
  | none =>
    cases b with
    | memory m =>
      have absent : m.findConsent i = none := Except.ok.inj read
      simp [summary?, MemoryStore.summary?, sort, absent]
    | tables m =>
      obtain ⟨-, absent⟩ := TableStore.reading_ok read
      have row := Option.map_eq_none_iff.mp (Except.ok.inj absent)
      simp [summary?, TableStore.summary?, sort, row]

theorem summary?_of_payment {x : Option Payment} (sort : p.isPayment = true)
    (read : Store.payment b i = .ok x) :
    b.summary? p i = x.map fun q => (Parent.payment q).summary := by
  cases x with
  | some q => exact ((payment_ok read).2 p sort).1
  | none =>
    cases b with
    | memory m =>
      have absent : m.findPayment i = none := Except.ok.inj read
      simp [summary?, MemoryStore.summary?, sort, absent]
    | tables m =>
      obtain ⟨-, absent⟩ := TableStore.reading_ok read
      have row := TableStore.readPayment_none_iff.mp absent
      simp [summary?, TableStore.summary?, sort, row]

theorem Looked.kept (h : Looked p i b s) :
    s.records = b.records ∧ s.labels = b.labels ∧ s.isOpen = b.isOpen ∧ s.nextId = b.nextId ∧
      Store.authorisationsOf s = Store.authorisationsOf b := by
  rcases h with rfl | ⟨-, q, order, -, -, -, saved⟩
  · exact ⟨rfl, rfl, rfl, rfl, rfl⟩
  · exact saved.kept

end Backend

theorem Parent.isTerminal_eq (parent : Parent) :
    parent.isTerminal = parent.summary.status.isTerminal := by
  cases parent <;> rfl

namespace Purpose

variable {b s : Backend} {p : Purpose} {i : String}

theorem findOrderedPayment_of_spelt {q : Payment} (read : Store.payment b i = .ok (some q))
    {order : Order} (spelt : q.orderOf = .ok order) :
    ∃ q' s, findOrderedPayment b i = (.ok (some q'), s) ∧ Looked .cancellation i b s ∧
      (Parent.payment q').summary = (Parent.payment q).summary ∧ q'.id = q.id := by
  unfold findOrderedPayment
  simp only [read]
  cases ordered : q.order with
  | some _ =>
    simp only [Payment.isMaterialised, ordered, Option.isSome_some, if_true]
    exact ⟨q, b, rfl, .inl rfl, rfl, rfl⟩
  | none =>
    obtain ⟨s, wrote, saved⟩ := saveOrder_saves read order
    simp only [Payment.isMaterialised, ordered, Option.isSome_none, Bool.false_eq_true, if_false,
      spelt, wrote]
    exact ⟨_, s, rfl, .inr ⟨rfl, q, order, read, ordered, spelt, saved⟩, rfl, rfl⟩

theorem findParent_of_spelt (serves : b.Serves p i) (spelt : b.Spells p i) :
    ∃ found s, p.findParent b i = (.ok found, s) ∧ Looked p i b s ∧
      found.map Parent.summary = b.summary? p i ∧ ∀ parent ∈ found, parent.id = i := by
  cases p with
  | account =>
    obtain ⟨x, read⟩ := exists_of_isOk (serves.consent rfl)
    refine ⟨x.map .consent, b, by simp only [findParent, read, Except.map], .inl rfl, ?_, ?_⟩
    · rw [summary?_of_consent rfl read, Option.map_map]
      rfl
    · intro parent found
      obtain ⟨c, rfl, rfl⟩ := Option.map_eq_some_iff.mp found
      exact (consent_ok read).1
  | initiation =>
    obtain ⟨x, read⟩ := exists_of_isOk (serves.payment rfl)
    refine ⟨x.map .payment, b, by simp only [findParent, read, Except.map], .inl rfl, ?_, ?_⟩
    · rw [summary?_of_payment rfl read, Option.map_map]
      rfl
    · intro parent found
      obtain ⟨q, rfl, rfl⟩ := Option.map_eq_some_iff.mp found
      exact (payment_ok read).1
  | cancellation =>
    obtain ⟨x, read⟩ := exists_of_isOk (serves.payment rfl)
    rw [summary?_of_payment rfl read]
    cases x with
    | none =>
      refine ⟨none, b, ?_, .inl rfl, rfl, fun _ found => absurd found (Option.not_mem_none _)⟩
      simp only [findParent, findOrderedPayment, read, Except.map, Option.map_none]
    | some q =>
      obtain ⟨order, spelt⟩ := spelt rfl q read
      obtain ⟨q', s, found, looked, summary, same⟩ := findOrderedPayment_of_spelt read spelt
      refine ⟨some (.payment q'), s, ?_, looked, congrArg some summary, ?_⟩
      · simp only [findParent, found, Except.map, Option.map_some]
      · rintro _ ⟨⟩
        exact same.trans (payment_ok read).1

theorem findParent_of_unspelt {q : Payment} {cause : PayloadError}
    (read : Store.payment b i = .ok (some q)) (unspelt : q.orderOf = .error cause) :
    cancellation.findParent b i = (.error (.corrupt cause.message), b) := by
  have unordered : q.isMaterialised = false := by
    cases ordered : q.order with
    | none => simp [Payment.isMaterialised, ordered]
    | some _ => simp [Payment.orderOf, ordered] at unspelt
  simp only [findParent, findOrderedPayment, read, unordered, unspelt, Except.map,
    Bool.false_eq_true, if_false]

theorem findActiveParent_of_inactive (serves : b.Serves p i) (spelt : b.Spells p i)
    (inactive : ∀ m, b.summary? p i = some m → m.status.isTerminal = true) :
    ∃ s, p.findActiveParent b i = (.ok none, s) ∧ Looked p i b s := by
  obtain ⟨found, s, answer, looked, summary, -⟩ := findParent_of_spelt serves spelt
  refine ⟨s, ?_, looked⟩
  have none : (found.filter fun parent => !parent.isTerminal) = none := by
    refine Option.filter_eq_none_iff.mpr fun parent there => ?_
    rw [there] at summary
    simpa [Parent.isTerminal_eq] using inactive _ summary.symm
  simp only [findActiveParent, answer, Except.map, none]

theorem findActiveParent_of_active {m : Parent.Summary} (serves : b.Serves p i)
    (spelt : b.Spells p i) (there : b.summary? p i = some m)
    (active : m.status.isTerminal = false) :
    ∃ parent s, p.findActiveParent b i = (.ok (some parent), s) ∧ Looked p i b s ∧
      parent.summary = m ∧ parent.id = i := by
  obtain ⟨found, s, answer, looked, summary, ids⟩ := findParent_of_spelt serves spelt
  rw [there] at summary
  obtain ⟨parent, rfl, rfl⟩ := Option.map_eq_some_iff.mp summary
  refine ⟨parent, s, ?_, looked, rfl, ids parent rfl⟩
  rw [← Parent.isTerminal_eq] at active
  simp [findActiveParent, answer, Except.map, active]

end Purpose

end StrongAuth
