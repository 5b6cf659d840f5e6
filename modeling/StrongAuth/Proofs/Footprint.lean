import StrongAuth.Proofs.Engine.Handling
import StrongAuth.Proofs.Store.Footprint

set_option autoImplicit false

namespace StrongAuth
open StrongAuth.Calendar StrongAuth.Store

namespace Backend

variable {s t : Backend} {l : Label}

/-- The consents are the same, record by record. -/
def SameConsents : Backend → Backend → Prop
  | .memory s, .memory t => t.consents = s.consents
  | .tables s, .tables t => t.consents = s.consents
  | _, _ => False

/-- The payments are the same, record by record. -/
def SamePayments : Backend → Backend → Prop
  | .memory s, .memory t => t.payments = s.payments
  | .tables s, .tables t => t.payments = s.payments
  | _, _ => False

theorem Frame.sameConsents (h : Frame l s t) (payment : l.purpose.isPayment = true) :
    SameConsents s t := by
  have other : l.purpose.isPayment ≠ false := by
    rw [payment]
    nofun
  cases h with
  | memory h => exact h.consents.eq_of_never fun _ _ may => other may.1
  | tables h => exact h.consents.eq_of_never fun _ _ may => other may.1

theorem Frame.samePayments (h : Frame l s t) (account : l.purpose.isPayment = false) :
    SamePayments s t := by
  have other : l.purpose.isPayment ≠ true := by
    rw [account]
    nofun
  cases h with
  | memory h => exact h.payments.eq_of_never fun _ _ may => other may.1
  | tables h => exact h.payments.eq_of_never fun _ _ may => other may.1

theorem authorisation_saveOrder (b : Backend) (i : String) (order : Order) :
    Store.authorisation (Store.saveOrder b i order).2 = Store.authorisation b := by
  cases b with
  | memory m =>
    change Store.authorisation (m.saveOrder i order).2 = Store.authorisation m
    unfold MemoryStore.saveOrder
    split <;> rfl
  | tables m =>
    change Store.authorisation (m.saveOrder i order).2 = Store.authorisation m
    unfold TableStore.saveOrder TableStore.writing
    split
    · rfl
    · unfold TableStore.writePayment
      split <;> rfl

/-- To look up a parent is to write nothing, or the order of a payment for its cancellation. -/
theorem lookup_touches {looked : List Operation} (s : Backend) (l : Label)
    (lookup : looked = [] ∨ looked = l.purpose.lookupWrites s l.parentId) :
    Frame l s (performed s looked) ∧
      Store.authorisation (performed s looked) = Store.authorisation s := by
  have idle : Frame l s (performed s []) ∧
      Store.authorisation (performed s []) = Store.authorisation s := ⟨.refl l s, rfl⟩
  rcases lookup with rfl | rfl
  · exact idle
  · rcases l.purpose.lookupWrites_cases s l.parentId with
      silent | ⟨q, order, cancels, -, -, -, writes⟩
    · rw [silent]
      exact idle
    · rw [writes]
      exact ⟨s.saveOrder_touches cancels order, s.authorisation_saveOrder l.parentId order⟩

end Backend

namespace Engine

variable {site after : Site Backend} {u : UpdateRequest} {stored : Authorisation} {o : Outcome}
  {ws : List Operation}

theorem found_after_lookup {looked : List Operation} (addressed : Addressed site.store u stored)
    (lookup : looked = [] ∨ looked = stored.purpose.lookupWrites site.store stored.parentId) :
    Store.authorisation (performed site.store looked) stored.id = .ok (some stored) := by
  rw [(Backend.lookup_touches site.store stored.label lookup).2,
    Backend.id_of_found addressed.found]
  exact addressed.found

theorem Handled.touches (h : Handled site u stored o after ws)
    (addressed : Addressed site.store u stored) :
    Backend.Frame stored.label site.store after.store := by
  have update {looked : List Operation} (o : Outcome)
      (lookup : looked = [] ∨ looked = stored.purpose.lookupWrites site.store stored.parentId) :
      Backend.Frame stored.label site.store (Store.updateAuthorisation
        (performed site.store looked) stored.id stored.version
        (stored.purpose.updateOf (.of u stored) o)).2 := by
    have looks := (Backend.lookup_touches site.store stored.label lookup).1
    refine looks.trans (Backend.updateAuthorisation_touches (l := stored.label) ?_ _ ?_)
    · intro a found
      have there := found_after_lookup addressed lookup
      obtain rfl := Option.some.inj (found.symm.trans (Backend.authorisation?_of_ok there))
      rfl
    · exact fun st reported => (ownStatus_concerns reported).2
  cases h with
  | idle => exact .refl _ _
  | @written _ _ _ _ due lookup wrote =>
    have touched := update o lookup
    rw [wrote] at touched
    exact touched
  | @refused o _ _ _ due lookup wrote =>
    have touched := update o lookup
    rw [wrote] at touched
    exact touched

theorem update_touches (c : Config) (now : Instant)
    (found : Store.authorisation site.store u.authorisationId = .ok (some stored)) :
    Backend.Frame stored.label site.store (update c now site u).2.store := by
  rcases update_outcomes c now site u with
    ⟨e, refused, -⟩ | ⟨a, o, addressed, -, -, handled⟩
  · rw [refused]
    exact .refl _ _
  · obtain rfl := Option.some.inj (Except.ok.inj (addressed.found.symm.trans found))
    exact handled.touches addressed

/-- An update changes nothing, or it is of a stored authorisation that is the one it names, and it
stays with that authorisation and its parent: of a consent it changes the status only, of a payment
the status and, if it is to be cancelled, the order. In particular an authorisation of a consent
leaves all payments as they are, and one of a payment all consents, whatever their ids are and
whatever the bank reports. -/
theorem update_frame (c : Config) (now : Instant) (site : Site Backend) (u : UpdateRequest) :
    (update c now site u).2.store = site.store ∨
    ∃ a, Store.authorisation site.store u.authorisationId = .ok (some a) ∧
      a.id = u.authorisationId ∧ a.parentId = u.parentId ∧
      Backend.Frame a.label site.store (update c now site u).2.store ∧
      (a.purpose = .account → Backend.SamePayments site.store (update c now site u).2.store) ∧
      (a.purpose ≠ .account → Backend.SameConsents site.store (update c now site u).2.store) := by
  rcases update_outcomes c now site u with
    ⟨e, refused, -⟩ | ⟨a, o, addressed, -, -, -⟩
  · rw [refused]
    exact .inl rfl
  · have touched := update_touches c now addressed.found
    refine .inr ⟨a, addressed.found,
      Backend.id_of_found addressed.found,
      addressed.parent, touched, fun account => touched.samePayments ?_,
      fun payment => touched.sameConsents ?_⟩
    · change a.purpose.isPayment = false
      rw [account]
      rfl
    · change a.purpose.isPayment = true
      cases kind : a.purpose with
      | account => exact absurd kind payment
      | initiation | cancellation => rfl

end Engine

end StrongAuth
