import Mathlib.Data.List.Forall2
import StrongAuth.Proofs.Store.Keyed

set_option autoImplicit false

namespace StrongAuth.Store

section Rewritten
variable {α : Type} {may : α → α → Prop} {l m n : List α}

/-- Every record is still the same, or became another one as it may. -/
def Rewritten (may : α → α → Prop) : List α → List α → Prop :=
  List.Forall₂ fun x y => y = x ∨ may x y

theorem Rewritten.refl (may : α → α → Prop) (l : List α) : Rewritten may l l :=
  List.forall₂_same.mpr fun _ _ => .inl rfl

theorem Rewritten.trans (chain : ∀ x y z, may x y → may y z → may x z) (h : Rewritten may l m)
    (k : Rewritten may m n) : Rewritten may l n := by
  unfold Rewritten at h k ⊢
  induction h generalizing n with
  | nil => exact k
  | @cons x y l m first rest ih =>
    cases k with
    | @cons _ z _ n second others =>
      refine .cons ?_ (ih others)
      rcases first with rfl | first
      · exact second
      · rcases second with rfl | second
        · exact .inr first
        · exact .inr (chain x y z first second)

theorem Rewritten.eq_of_never (never : ∀ x y, ¬may x y) (h : Rewritten may l m) : m = l := by
  unfold Rewritten at h
  induction h with
  | nil => rfl
  | cons first rest ih => rw [ih, first.resolve_right (never _ _)]

theorem rewritten_map {f : α → α} (h : ∀ x ∈ l, f x = x ∨ may x (f x)) :
    Rewritten may l (l.map f) :=
  List.forall₂_map_right_iff.mpr (List.forall₂_same.mpr h)

theorem rewritten_at {key : α → String} {id : String} {f : α → α}
    (allowed : ∀ x ∈ l, key x = id → may x (f x)) :
    Rewritten may l (l.map fun x => if key x == id then f x else x) := by
  refine rewritten_map fun x hx => ?_
  split
  · next here => exact .inr (allowed x hx (eq_of_beq here))
  · exact .inl rfl

end Rewritten

theorem find?_related {α : Type} {related : α → α → Prop} {key : α → String} {l m : List α}
    (h : List.Forall₂ related l m) (keys : ∀ x y, related x y → key y = key x) (id : String) :
    (∃ x y, (l.find? fun x => key x == id) = some x ∧
        (m.find? fun y => key y == id) = some y ∧ related x y) ∨
      (l.find? fun x => key x == id) = none ∧ (m.find? fun y => key y == id) = none := by
  induction h with
  | nil => exact .inr ⟨rfl, rfl⟩
  | @cons x y l m first rest ih =>
    rw [List.find?_cons, List.find?_cons, keys x y first]
    cases key x == id with
    | true => exact .inl ⟨x, y, rfl, rfl, first⟩
    | false => exact ih

section SameOff
variable {α κ : Type} {key : α → κ} {off off' : κ → Prop} {l m n : List α}

/-- The same keys are in the same places, and the same records under all keys but those that are
left out of account. -/
def SameOff (key : α → κ) (off : κ → Prop) : List α → List α → Prop :=
  List.Forall₂ fun x y => key y = key x ∧ (¬off (key x) → y = x)

namespace SameOff

theorem symm (h : SameOff key off l m) : SameOff key off m l := by
  refine List.Forall₂.flip (List.Forall₂.imp ?_ h)
  rintro x y ⟨keys, same⟩
  refine ⟨keys.symm, fun on => (same ?_).symm⟩
  rw [← keys]
  exact on

theorem trans (h : SameOff key off l m) (k : SameOff key off m n) : SameOff key off l n := by
  unfold SameOff at h k ⊢
  induction h generalizing n with
  | nil => exact k
  | cons first rest ih =>
    cases k with
    | cons second others =>
      refine .cons ⟨second.1.trans first.1, fun on => ?_⟩ (ih others)
      have same := first.2 on
      rw [← first.1] at on
      exact (second.2 on).trans same

theorem of_rewritten {may : α → α → Prop} (h : Rewritten may l m)
    (out : ∀ x ∈ l, ∀ y, may x y → key y = key x ∧ off (key x)) : SameOff key off l m := by
  unfold Rewritten at h
  unfold SameOff
  induction h with
  | nil => exact .nil
  | @cons x y l m first rest ih =>
    refine .cons ?_ (ih fun z hz => out z (List.mem_cons_of_mem _ hz))
    rcases first with rfl | first
    · exact ⟨rfl, fun _ => rfl⟩
    · obtain ⟨keys, there⟩ := out x List.mem_cons_self y first
      exact ⟨keys, fun on => absurd there on⟩

/-- Lists that agree off either of two sets of keys are the same if no key is in both. -/
theorem eq_of_disjoint (h : SameOff key off l m) (k : SameOff key off' l m)
    (disjoint : ∀ x, off x → ¬off' x) : m = l := by
  unfold SameOff at h k
  induction h with
  | nil => rfl
  | @cons x y l m first rest ih =>
    cases k with
    | cons second others =>
      rw [ih others]
      by_cases out : off (key x)
      · rw [second.2 (disjoint _ out)]
      · rw [first.2 out]

theorem find?_eq {q : κ → Bool} (h : SameOff key off l m)
    (on : ∀ x ∈ l, q (key x) = true → ¬off (key x)) :
    (m.find? fun x => q (key x)) = l.find? fun x => q (key x) := by
  unfold SameOff at h
  induction h with
  | nil => rfl
  | @cons x y l m first rest ih =>
    rw [List.find?_cons, List.find?_cons, first.1]
    cases found : q (key x) with
    | true => rw [first.2 (on x List.mem_cons_self found)]
    | false => exact ih fun z hz => on z (List.mem_cons_of_mem _ hz)

theorem filter_eq {q : κ → Bool} (h : SameOff key off l m)
    (on : ∀ x ∈ l, q (key x) = true → ¬off (key x)) :
    (m.filter fun x => q (key x)) = l.filter fun x => q (key x) := by
  unfold SameOff at h
  induction h with
  | nil => rfl
  | @cons x y l m first rest ih =>
    have others := ih fun z hz => on z (List.mem_cons_of_mem _ hz)
    rw [List.filter_cons, List.filter_cons, first.1, others]
    cases found : q (key x) with
    | true => rw [first.2 (on x List.mem_cons_self found)]
    | false => rfl

theorem map {f : α → α} (h : SameOff key off l m)
    (agree : ∀ x y, key y = key x → (¬off (key x) → y = x) →
      key (f y) = key (f x) ∧ (¬off (key (f x)) → f y = f x)) :
    SameOff key off (l.map f) (m.map f) := by
  refine List.forall₂_map_left_iff.mpr (List.forall₂_map_right_iff.mpr (List.Forall₂.imp ?_ h))
  exact fun x y both => agree x y both.1 both.2

variable (name : κ → String) (id : String)

theorem map_at {f : α → α} (h : SameOff key off l m) (keeps : ∀ x, key (f x) = key x) :
    SameOff key off (l.map fun x => if name (key x) == id then f x else x)
      (m.map fun x => if name (key x) == id then f x else x) := by
  refine h.map fun x y keys same => ?_
  rw [keys]
  split
  · rw [keeps, keeps]
    exact ⟨keys, fun on => congrArg f (same on)⟩
  · exact ⟨keys, same⟩

theorem replace_at (a : α) (h : SameOff key off l m) :
    SameOff key off (l.map fun x => if name (key x) == id then a else x)
      (m.map fun x => if name (key x) == id then a else x) := by
  refine h.map fun x y keys same => ?_
  rw [keys]
  split
  · exact ⟨rfl, fun _ => rfl⟩
  · exact ⟨keys, same⟩

end SameOff

end SameOff

end StrongAuth.Store
