import StrongAuth.Proofs.Engine.Writes
import StrongAuth.Proofs.Store.Operations
import StrongAuth.Samples

set_option autoImplicit false

namespace StrongAuth
open StrongAuth.Calendar StrongAuth.Store

namespace Store

namespace Ledger

/-- The payment is there with its order. -/
def isMaterialised (l : Ledger) (i : String) : Bool := (l.payments i).any Payment.isMaterialised

theorem isMaterialised_of_payment {l : Ledger} {i : String} {q : Payment}
    (there : l.payments i = some q) : l.isMaterialised i = q.order.isSome := by
  simp [isMaterialised, there, Payment.isMaterialised]

end Ledger

/-- What holds before the operation is accepted: an order is saved of a payment that spells it and has
none, a cancellation is of a payment that has one, and the id of a payment is new. -/
def Operation.Befits (l : Ledger) : Operation → Prop
  | saveOrder i order => ∃ q, l.payments i = some q ∧ q.order = none ∧ q.orderOf = .ok order
  | insertAuthorisation d => d.purpose = .cancellation → l.isMaterialised d.parentId = true
  | insertPayment q => l.payments q.id = none
  | _ => True

theorem eq_true_of_le_toNat {n : Nat} {x : Bool} (reasons : n ≤ x.toNat) (some : 0 < n) :
    x = true := by
  cases x with
  | true => rfl
  | false => exact absurd (Nat.lt_of_lt_of_le some reasons) (Nat.lt_irrefl 0)

theorem Operation.mem_enrol {op : Operation} {new : String} {l : List Authorisation}
    {a : Authorisation} (ha : a ∈ op.enrol new l) :
    (∃ d, op = .insertAuthorisation d ∧ a.purpose = d.purpose ∧ a.parentId = d.parentId) ∨
      ∃ a' ∈ l, a.purpose = a'.purpose ∧ a.parentId = a'.parentId := by
  cases op with
  | insertAuthorisation d =>
    rcases List.mem_append.mp ha with ha | ha
    · exact .inr ⟨a, ha, rfl, rfl⟩
    · obtain rfl := List.mem_singleton.mp ha
      exact .inl ⟨d, rfl, rfl, rfl⟩
  | updateAuthorisation id version u =>
    obtain ⟨a', ha', rfl⟩ := List.mem_map.mp ha
    refine .inr ⟨a', ha', ?_⟩
    split <;> exact ⟨rfl, rfl⟩
  | _ => exact .inr ⟨a, ha, rfl, rfl⟩

namespace Ledger

variable {l : Ledger} {op : Operation}

/-- A payment is read to the same end after an operation, and has no new order unless one is saved. -/
theorem payment_enter (shares : Bool) (befits : op.Befits l) {i : String} {q : Payment}
    (there : l.payments i = some q) :
    ∃ q', (l.enter shares op).payments i = some q' ∧ q'.payload = q.payload ∧
      q'.orderOf = q.orderOf ∧ (op.savesOrderOf i = false → q'.order = q.order) := by
  cases op with
  | saveOrder id order =>
    obtain ⟨p, found, -, spelt⟩ := befits
    simp only [enter, withOrder, there, Option.map_some]
    by_cases here : i = id
    · subst here
      obtain rfl := Option.some.inj (there.symm.trans found)
      rw [if_pos rfl]
      refine ⟨_, rfl, rfl, spelt.symm, fun other => ?_⟩
      simp [Operation.savesOrderOf] at other
    · rw [if_neg here]
      exact ⟨q, rfl, rfl, rfl, fun _ => rfl⟩
  | insertPayment r =>
    have other : i ≠ r.id := by
      rintro rfl
      rw [Operation.Befits, there] at befits
      cases befits
    refine ⟨q, ?_, rfl, rfl, fun _ => rfl⟩
    simp only [enter, withPayment, if_neg other, there]
  | _ => exact ⟨q, there, rfl, rfl, fun _ => rfl⟩

theorem isMaterialised_enter (shares : Bool) (befits : op.Befits l) (i : String) :
    (op.savesOrderOf i).toNat + (l.isMaterialised i).toNat ≤
      ((l.enter shares op).isMaterialised i).toNat := by
  cases saves : op.savesOrderOf i with
  | true =>
    cases op with
    | saveOrder id order =>
      obtain rfl : id = i := by simpa [Operation.savesOrderOf] using saves
      obtain ⟨q, found, missing, -⟩ := befits
      have after : (l.enter shares (.saveOrder id order)).payments id =
          some { q with order := some order } := by
        simp [enter, withOrder, found]
      rw [isMaterialised_of_payment found, isMaterialised_of_payment after, missing]
      exact Nat.le_refl _
    | _ => cases saves
  | false =>
    cases there : l.payments i with
    | none =>
      simp only [isMaterialised, there]
      exact Nat.zero_le _
    | some q =>
      obtain ⟨q', after, -, -, same⟩ := payment_enter shares befits there
      rw [isMaterialised_of_payment there, isMaterialised_of_payment after, same saves]
      exact Nat.le_of_eq (Nat.zero_add _)

end Ledger

end Store

namespace Backend

/-- Every cancellation is of a payment that is there with its order. -/
def IsBacked (b : Backend) : Prop :=
  ∀ a ∈ b.records, a.purpose = .cancellation → b.ledger.isMaterialised a.parentId = true

theorem isMaterialised_iff {b : Backend} {i : String} : b.ledger.isMaterialised i = true ↔
    ∃ q, b.payment? i = some q ∧ q.isMaterialised = true := by
  rw [Ledger.isMaterialised, ledger_payments, Option.any_map, Option.any_eq_true]
  exact Iff.rfl

theorem payment?_of_insertPayment {b : Backend} (reads : b.ReadsPayments) {q : Payment}
    (accepted : (Store.insertPayment b q).1.isOk = true) :
    ∃ q', (Store.insertPayment b q).2.payment? q.id = some q' ∧ q'.payload = q.payload ∧
      q'.orderOf = q.orderOf := by
  have heard : ((Operation.insertPayment q).perform b).1.isOk = true :=
    (isOk_map _ _).trans accepted
  have ledger := (ledger_perform reads (.insertPayment q)).2
  rw [Ledger.after, if_pos heard] at ledger
  have there : (Store.insertPayment b q).2.ledger.payments q.id = some q.substance :=
    (congrArg (fun l => l.payments q.id) ledger).trans (if_pos rfl)
  rw [ledger_payments] at there
  obtain ⟨q', found, same⟩ := Option.map_eq_some_iff.mp there
  have payload : q'.substance.payload = q.substance.payload := congrArg Payment.payload same
  have read : q'.substance.orderOf = q.substance.orderOf := congrArg Payment.orderOf same
  exact ⟨q', found, payload, read⟩

/-- A store became this one while these writes were asked of it. -/
structure Evolves (b : Backend) (ws : List Operation) (b' : Backend) : Prop where
  intact : b'.IsIntact
  payment : ∀ {i : String} {q : Payment}, b.ledger.payments i = some q →
    ∃ q', b'.ledger.payments i = some q' ∧ q'.payload = q.payload ∧ q'.orderOf = q.orderOf ∧
      (ws.countP (·.savesOrderOf i) = 0 → q'.order = q.order)
  saved : ∀ i, ws.countP (·.savesOrderOf i) + (b.ledger.isMaterialised i).toNat ≤
    (b'.ledger.isMaterialised i).toNat
  backed : b.IsBacked → b'.IsBacked

namespace Evolves

variable {b b' b'' : Backend} {ws vs : List Operation}

theorem same (intact : b'.IsIntact) (ledger : b'.ledger = b.ledger)
    (records : b'.records = b.records) (silent : ∀ i, ws.countP (·.savesOrderOf i) = 0) :
    Evolves b ws b' := by
  refine ⟨intact, fun {i q} there => ⟨q, ?_, rfl, rfl, fun _ => rfl⟩, fun i => ?_, fun backed => ?_⟩
  · rw [ledger]
    exact there
  · rw [ledger, silent]
    exact Nat.le_of_eq (Nat.zero_add _)
  · rw [IsBacked, ledger, records]
    exact backed

theorem refl (intact : b.IsIntact) : Evolves b [] b := same intact rfl rfl fun _ => rfl

theorem trans (h : Evolves b ws b') (k : Evolves b' vs b'') : Evolves b (ws ++ vs) b'' := by
  refine ⟨k.intact, fun {i q} there => ?_, fun i => ?_, fun backed => k.backed (h.backed backed)⟩
  · obtain ⟨q', there', payload', read', order'⟩ := h.payment there
    obtain ⟨q'', there'', payload'', read'', order''⟩ := k.payment there'
    refine ⟨q'', there'', payload''.trans payload', read''.trans read', fun none => ?_⟩
    rw [List.countP_append, Nat.add_eq_zero_iff] at none
    exact (order'' none.2).trans (order' none.1)
  · have first := h.saved i
    have second := k.saved i
    rw [List.countP_append]
    omega

theorem perform (intact : b.IsIntact) {op : Operation}
    (befits : (op.perform b).1.isOk = true → op.Befits b.ledger)
    (heard : ∀ i, op.savesOrderOf i = true → (op.perform b).1.isOk = true) :
    Evolves b [op] (op.perform b).2 := by
  have intact' := isIntact_perform intact op
  have ledger := (ledger_perform intact.payments op).2
  have records := (enrols_perform intact.sound op).records
  have count (i : String) : [op].countP (·.savesOrderOf i) = (op.savesOrderOf i).toNat := by
    cases saves : op.savesOrderOf i <;> simp [saves]
  cases accepted : (op.perform b).1.isOk with
  | false =>
    rw [Ledger.after, accepted] at ledger
    rw [accepted] at records
    refine same intact' ledger records fun i => ?_
    cases saves : op.savesOrderOf i with
    | false => rw [count, saves]; rfl
    | true =>
      rw [heard i saves] at accepted
      cases accepted
  | true =>
    have fits := befits accepted
    rw [Ledger.after, accepted, if_pos rfl] at ledger
    rw [accepted, if_pos rfl] at records
    have saved (i : String) : (op.savesOrderOf i).toNat + (b.ledger.isMaterialised i).toNat ≤
        ((op.perform b).2.ledger.isMaterialised i).toNat := by
      rw [ledger]
      exact Ledger.isMaterialised_enter b.sharesPsus fits i
    refine ⟨intact', fun {i q} there => ?_, fun i => ?_, fun backed a ha type => ?_⟩
    · rw [ledger, count]
      obtain ⟨q', there', payload, read, order⟩ :=
        Ledger.payment_enter b.sharesPsus fits there
      exact ⟨q', there', payload, read, fun none => order (by simpa using none)⟩
    · rw [count]
      exact saved i
    · rw [records] at ha
      have before : b.ledger.isMaterialised a.parentId = true := by
        rcases Operation.mem_enrol ha with ⟨d, rfl, purpose, child⟩ | ⟨a', ha', purpose, child⟩
        · rw [child]
          exact fits (purpose.symm.trans type)
        · rw [child]
          exact backed a' ha' (purpose.symm.trans type)
      have kept := saved a.parentId
      rw [before] at kept
      exact eq_true_of_le_toNat kept (Nat.succ_pos _)

theorem found (h : Evolves b ws b') {i : String} {q : Payment} (there : b.payment? i = some q) :
    ∃ q', b'.payment? i = some q' ∧ q'.payload = q.payload ∧ q'.orderOf = q.orderOf ∧
      (ws.countP (·.savesOrderOf i) = 0 → q'.order = q.order) := by
  obtain ⟨_, after, payload, read, order⟩ := h.payment (ledger_of_payment there)
  rw [ledger_payments] at after
  obtain ⟨q', there', rfl⟩ := Option.map_eq_some_iff.mp after
  exact ⟨q', there', payload, read, order⟩

theorem snoc (h : Evolves b ws (performed b ws)) {op : Operation}
    (befits : (op.perform (performed b ws)).1.isOk = true →
      op.Befits (performed b ws).ledger)
    (heard : ∀ i, op.savesOrderOf i = true → (op.perform (performed b ws)).1.isOk = true) :
    Evolves b (ws ++ [op]) (performed b (ws ++ [op])) := by
  rw [performed_append]
  exact h.trans (perform h.intact befits heard)

end Evolves

end Backend

namespace Purpose
open StrongAuth.Backend

variable {b b' : Backend} {p : Purpose} {i : String}

theorem lookupWrites_evolves (intact : b.IsIntact) (p : Purpose) (i : String) :
    Evolves b (p.lookupWrites b i) (performed b (p.lookupWrites b i)) := by
  rcases p.lookupWrites_cases b i with silent | ⟨q, order, -, read, missing, spelt, writes⟩
  · rw [silent]
    exact .refl intact
  · have there := ledger_of_payment (payment?_of_payment read)
    have accepted : ((Operation.saveOrder i order).perform b).1.isOk = true :=
      (isOk_map _ _).trans (saveOrder_isOk read order)
    rw [writes]
    exact .perform intact (fun _ => ⟨q.substance, there, missing, spelt⟩) fun _ _ => accepted

theorem isMaterialised_of_found (intact : b.IsIntact) {parent : Parent}
    (found : cancellation.findActiveParent b i = (.ok (some parent), b')) :
    (performed b (cancellation.lookupWrites b i)).ledger.isMaterialised i = true := by
  have saved := (lookupWrites_evolves intact cancellation i).saved i
  rcases cancellation.lookupWrites_cases b i with silent | ⟨q, order, -, -, -, -, writes⟩
  · obtain ⟨answer, rfl⟩ := Prod.mk.inj found
    obtain ⟨_, looked, e⟩ := Store.map_eq_ok answer
    obtain ⟨rfl, -⟩ := Option.filter_eq_some_iff.mp e
    obtain ⟨_, ordered, e⟩ := Store.map_eq_ok looked
    obtain ⟨q, rfl, rfl⟩ := Option.map_eq_some_iff.mp e
    obtain ⟨there, ordered⟩ := findOrderedPayment_silent silent (Prod.ext ordered rfl)
    have before := ledger_of_payment (payment?_of_payment there)
    rw [silent]
    exact (Ledger.isMaterialised_of_payment before).trans ordered
  · refine eq_true_of_le_toNat saved ?_
    simp only [writes, Operation.savesOrderOf, List.countP_singleton, beq_self_eq_true, if_true]
    omega

end Purpose

namespace Backend

variable {b : Backend} {p : Purpose} {i : String} {ws : List Operation}

theorem evolves_lookup (intact : b.IsIntact) {looked : List Operation}
    (lookup : looked = [] ∨ looked = p.lookupWrites b i) :
    Evolves b looked (performed b looked) := by
  rcases lookup with rfl | rfl
  · exact .refl intact
  · exact p.lookupWrites_evolves intact i

theorem evolves_call (intact : b.IsIntact) (writes : CallWrites p b i ws) :
    Evolves b ws (performed b ws) := by
  cases writes with
  | looked lookup => exact evolves_lookup intact lookup
  | updated lookup => exact (evolves_lookup intact lookup).snoc (fun _ => trivial) nofun
  | opened purpose child found =>
    refine (evolves_lookup intact (.inr rfl)).snoc (fun _ type => ?_) nofun
    obtain rfl := purpose.symm.trans type
    rw [child]
    exact Purpose.isMaterialised_of_found intact found

theorem evolves_address {address : Address} (intact : b.IsIntact)
    (writes : AddressWrites address b i ws) : Evolves b ws (performed b ws) := by
  rcases writes with rfl | ⟨p, -, writes⟩
  · exact .refl intact
  · exact evolves_call intact writes

theorem evolves_suffer (intact : b.IsIntact) (change : Failure) :
    Evolves b [] (b.suffer change) := by
  have keeps := suffer_keeps b change
  have payments : (b.suffer change).ReadsPayments := by
    have reads := intact.payments
    cases b with
    | memory s => cases change <;> trivial
    | tables t => cases change <;> exact reads
  refine .same ⟨keeps.sound intact.sound, payments⟩ ?_ keeps.records fun _ => rfl
  cases b <;> cases change <;> rfl

end Backend

namespace Engine

variable {c : Config} {site : Site Backend}

theorem next_evolves (c : Config) (intact : site.store.IsIntact) (e : Event) :
    site.store.Evolves (writesOf c site e) (next c site e).store := by
  have shape := writesOf_shape c site e
  cases e with
  | failure change => exact Backend.evolves_suffer intact change
  | start now r =>
    rw [next_store c site (e := .start now r) nofun]
    exact Backend.evolves_address intact shape
  | update now u =>
    rw [next_store c site (e := .update now u) nofun]
    exact Backend.evolves_address intact shape
  | bank desk script => exact .refl intact
  | addConsent d => exact .perform intact (fun _ => trivial) nofun
  | addPayment q =>
    refine .perform intact (fun accepted => ?_) nofun
    exact Backend.fresh_of_insertPayment ((isOk_map _ _).symm.trans accepted)

theorem run_evolves (c : Config) (intact : site.store.IsIntact) (events : List Event) :
    site.store.Evolves (writes c site events) (run c site events).store := by
  induction events generalizing site with
  | nil => exact .refl intact
  | cons e events ih =>
    have step := next_evolves c intact e
    exact step.trans (ih step.intact)

/-- A cancellation is of a payment whose order is stored. A payment keeps its payload and is read as
it was when it was inserted, and its order is saved at most once, by a call for its cancellation. -/
theorem orders_saved_once (c : Config) {site : Site Backend} (new : site.store.isEmpty = true)
    (events : List Event) :
    (∀ a ∈ (run c site events).store.records, a.purpose = .cancellation →
      ∃ q, (run c site events).store.payment? a.parentId = some q ∧ q.isMaterialised = true) ∧
    (∀ early q late, events = early ++ .addPayment q :: late →
      (Store.insertPayment (run c site early).store q).1.isOk = true →
      ∃ q', (run c site events).store.payment? q.id = some q' ∧ q'.payload = q.payload ∧
        q'.orderOf = q.orderOf) ∧
    (∀ early late, events = early ++ late → ∀ i q,
      (run c site early).store.payment? i = some q →
      ∃ q', (run c site events).store.payment? i = some q' ∧ q'.payload = q.payload ∧
        q'.orderOf = q.orderOf ∧
        ((writes c (run c site early) late).countP (·.savesOrderOf i) = 0 →
          q'.order = q.order)) ∧
    (∀ i, (writes c site events).countP (·.savesOrderOf i) ≤ 1) ∧
    (∀ early e late, events = early ++ e :: late → ∀ i,
      e.target? ≠ some (.cancellation, i) →
      (∀ op ∈ writesOf c (run c site early) e, op.savesOrderOf i = false) ∧
      ∀ q, (run c site early).store.payment? i = some q →
        ∃ q', (next c (run c site early) e).store.payment? i = some q' ∧ q'.order = q.order) := by
  have empty := Backend.isIntact_of_isEmpty new
  have evolves := run_evolves c empty events
  have between (early late : List Event) (split : events = early ++ late) :
      (run c site early).store.Evolves (writes c (run c site early) late)
        (run c site events).store := by
    rw [split, run_append]
    exact run_evolves c (run_evolves c empty early).intact late
  refine ⟨fun a ha type => ?_, ?_, fun early late split i q there => ?_, fun i => ?_, ?_⟩
  · have backed : site.store.IsBacked := by
      intro a ha
      rw [Backend.records_of_isFresh (Backend.isFresh_of_isEmpty new)] at ha
      cases ha
    exact Backend.isMaterialised_iff.mp (evolves.backed backed a ha type)
  · rintro early q late split accepted
    have reads := (run_evolves c empty early).intact.payments
    obtain ⟨q', there, payload, read⟩ := Backend.payment?_of_insertPayment reads accepted
    rw [List.append_cons] at split
    have kept := between (early ++ [.addPayment q]) late split
    rw [run_append] at kept
    obtain ⟨q'', there', payload', read', -⟩ := kept.found there
    exact ⟨q'', there', payload'.trans payload, read'.trans read⟩
  · exact (between early late split).found there
  · exact Nat.le_trans (Nat.le_add_right _ _) (Nat.le_trans (evolves.saved i) (Bool.toNat_le _))
  · intro early e late _ i other
    have silent : ∀ op ∈ writesOf c (run c site early) e, op.savesOrderOf i = false := by
      intro op written
      cases saves : op.savesOrderOf i with
      | false => rfl
      | true => exact absurd (target_of_saved written saves) other
    refine ⟨silent, fun q there => ?_⟩
    have step := next_evolves c (run_evolves c empty early).intact e
    obtain ⟨q', there', -, -, order⟩ := step.found there
    refine ⟨q', there', order (List.countP_eq_zero.mpr fun op written => ?_)⟩
    rw [silent op written]
    exact Bool.false_ne_true

theorem recalled_batch_saved_once :
    Samples.emptySite.store.isEmpty = true ∧
      (writes {} Samples.emptySite Samples.recalledTwice).countP (·.savesOrderOf "payment") = 1 ∧
      ∃ a ∈ (run {} Samples.emptySite Samples.recalledTwice).store.records,
        a.purpose = .cancellation ∧
        ∃ q, (run {} Samples.emptySite Samples.recalledTwice).store.payment? a.parentId = some q ∧
          q.isMaterialised = true := by
  have new : Samples.emptySite.store.isEmpty = true := rfl
  have cancelled : (run {} Samples.emptySite Samples.recalledTwice).store.records.any
      (fun a => a.purpose = .cancellation) = true := by decide +kernel
  obtain ⟨a, ha, type⟩ := List.any_eq_true.mp cancelled
  have cancellation : a.purpose = .cancellation := of_decide_eq_true type
  exact ⟨new, by decide +kernel, a, ha, cancellation,
    (orders_saved_once {} new Samples.recalledTwice).1 a ha cancellation⟩

end Engine

end StrongAuth
