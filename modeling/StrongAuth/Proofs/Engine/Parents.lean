import StrongAuth.Proofs.Store.Backend

set_option autoImplicit false

namespace StrongAuth.Purpose
open StrongAuth.Backend

variable {b b' : Backend} {p : Purpose} {i : String}

theorem findOrderedPayment_keeps {x : Except StoreError (Option Payment)}
    (h : findOrderedPayment b i = (x, b')) : KeepsCalm b b' := by
  unfold findOrderedPayment at h
  split at h
  · cases h
    exact KeepsCalm.refl b
  · cases h
    exact KeepsCalm.refl b
  · split at h
    · cases h
      exact KeepsCalm.refl b
    · split at h
      · cases h
        exact KeepsCalm.refl b
      · split at h
        · next saved =>
          cases h
          exact saveOrder_keeps saved
        · next refused =>
          cases h
          exact saveOrder_keeps refused

theorem findOrderedPayment_ok {q : Payment} (h : findOrderedPayment b i = (.ok (some q), b')) :
    Store.payment b' i = .ok (some q) := by
  unfold findOrderedPayment at h
  split at h
  · cases h
  · cases h
  · next found =>
    split at h
    · cases h
      exact found
    · split at h
      · cases h
      · split at h
        · next saved =>
          cases h
          exact saveOrder_ok saved
        · cases h

theorem findParent_keeps {x : Except StoreError (Option Parent)}
    (h : p.findParent b i = (x, b')) : KeepsCalm b b' := by
  cases p with
  | account =>
    cases h
    exact KeepsCalm.refl b
  | initiation =>
    cases h
    exact KeepsCalm.refl b
  | cancellation =>
    obtain ⟨-, rfl⟩ := Prod.mk.inj h
    exact findOrderedPayment_keeps (x := (findOrderedPayment b i).1) rfl

theorem findActiveParent_keeps {x : Except StoreError (Option Parent)}
    (h : p.findActiveParent b i = (x, b')) : KeepsCalm b b' := by
  obtain ⟨-, rfl⟩ := Prod.mk.inj h
  exact findParent_keeps (x := (p.findParent b i).1) rfl

/-- The parent is the one of this id, and the store that was left behind can read it again. -/
structure Found (b : Backend) (p : Purpose) (i : String) (parent : Parent) : Prop where
  id : parent.id = i
  summary : b.summary? p i = some parent.summary
  psus : parent.psus = b.psusOf p i
  readable : b.HasReadable p i

theorem found_consent {c : Consent} (sort : p.isPayment = false)
    (h : Store.consent b i = .ok (some c)) : Found b p i (.consent c) := by
  obtain ⟨same, contents⟩ := consent_ok h
  obtain ⟨summary, psus⟩ := contents p sort
  refine ⟨same, summary, psus, fun _ => ⟨c, h⟩, ?_⟩
  intro payment
  rw [sort] at payment
  cases payment

theorem found_payment {q : Payment} (sort : p.isPayment = true)
    (h : Store.payment b i = .ok (some q)) : Found b p i (.payment q) := by
  obtain ⟨same, contents⟩ := payment_ok h
  obtain ⟨summary, psus⟩ := contents p sort
  refine ⟨same, summary, psus, ?_, fun _ => ⟨q, h⟩⟩
  intro consent
  rw [sort] at consent
  cases consent

theorem findParent_ok {parent : Parent} (h : p.findParent b i = (.ok (some parent), b')) :
    Found b' p i parent := by
  cases p with
  | account =>
    obtain ⟨answer, rfl⟩ := Prod.mk.inj h
    obtain ⟨found, read, e⟩ := Store.map_eq_ok answer
    obtain ⟨c, rfl, rfl⟩ := Option.map_eq_some_iff.mp e
    exact found_consent rfl read
  | initiation =>
    obtain ⟨answer, rfl⟩ := Prod.mk.inj h
    obtain ⟨found, read, e⟩ := Store.map_eq_ok answer
    obtain ⟨q, rfl, rfl⟩ := Option.map_eq_some_iff.mp e
    exact found_payment rfl read
  | cancellation =>
    obtain ⟨answer, rfl⟩ := Prod.mk.inj h
    obtain ⟨found, read, e⟩ := Store.map_eq_ok answer
    obtain ⟨q, rfl, rfl⟩ := Option.map_eq_some_iff.mp e
    exact found_payment rfl (findOrderedPayment_ok (Prod.ext read rfl))

theorem findActiveParent_ok {parent : Parent}
    (h : p.findActiveParent b i = (.ok (some parent), b')) :
    Found b' p i parent ∧ parent.isTerminal = false := by
  obtain ⟨answer, rfl⟩ := Prod.mk.inj h
  obtain ⟨found, read, e⟩ := Store.map_eq_ok answer
  obtain ⟨rfl, live⟩ := Option.filter_eq_some_iff.mp e
  exact ⟨findParent_ok (Prod.ext read rfl), by simpa using live⟩

end StrongAuth.Purpose
