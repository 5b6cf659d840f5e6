import Mathlib.Data.List.Forall2
import StrongAuth.Progress

set_option autoImplicit false

namespace StrongAuth

namespace Psu

/-- The ids are the same, whatever their types are. -/
structure SameIds (p q : Psu) : Prop where
  id : p.id = q.id
  corporateId : p.corporateId = q.corporateId

namespace SameIds

variable {p q : Psu}

theorem refl (p : Psu) : p.SameIds p := ⟨rfl, rfl⟩

theorem of_isSame (h : p.isSame q = true) : p.SameIds q :=
  ⟨((isSame_iff p q).mp h).2.1, ((isSame_iff p q).mp h).2.2⟩

variable (h : p.SameIds q)
include h

theorem isEmpty : q.isEmpty = p.isEmpty := isEmpty_eq_of_ids_eq h.id.symm

theorem isSame (r : Psu) : q.isSame r = p.isSame r := by
  rw [Psu.isSame, Psu.isSame, h.isEmpty, h.id, h.corporateId]

theorem text : q.text = p.text := by
  rw [Psu.text, Psu.text, h.id, h.corporateId]

end SameIds

end Psu

/-- The authorisations count alike for the progress of a parent. -/
structure Authorisation.CountsLike (a b : Authorisation) : Prop where
  parent : a.parentId = b.parentId
  status : a.status = b.status
  psu : ∀ psu, a.psu.isSame psu = b.psu.isSame psu

namespace Parent

variable {parent other : Parent} {l l' : List Authorisation}

theorem mem_granted {a : Authorisation} :
    a ∈ parent.granted l ↔ a ∈ l ∧ a.parentId = parent.id ∧ a.status.isGranted = true := by
  rw [granted, List.mem_filter, Bool.and_eq_true, beq_iff_eq]

theorem progress_eq_complete_iff :
    parent.progress l = .complete ↔ parent.granted l ≠ [] ∧
      (parent.multilevel = true → ∀ psu ∈ parent.psus, ∃ a ∈ parent.granted l,
        a.psu.isSame psu = true) := by
  unfold progress
  cases none : (parent.granted l).isEmpty with
  | true => simp [List.isEmpty_iff.mp none]
  | false =>
    have some : parent.granted l ≠ [] := List.isEmpty_eq_false_iff.mp none
    cases parent.multilevel with
    | false => simp [some]
    | true =>
      cases nobody : parent.psus.isEmpty with
      | true => simp [some, List.isEmpty_iff.mp nobody]
      | false =>
        simp only [Bool.false_eq_true, if_false, Bool.not_true, Bool.or_self]
        by_cases all : parent.psus.all (fun psu => signedBy psu (parent.granted l)) = true
        · rw [if_pos all]
          simpa [some, signedBy] using all
        · rw [if_neg all]
          simpa [some, signedBy] using all

theorem progress_congr (id : parent.id = other.id) (multilevel : parent.multilevel = other.multilevel)
    (psus : parent.psus = other.psus) : parent.progress l = other.progress l := by
  have same : parent.granted l = other.granted l := by
    unfold granted
    rw [id]
  simp only [progress, same, multilevel]
  rw [psus]

theorem progress_of_granted (same : parent.granted l = parent.granted l') :
    parent.progress l = parent.progress l' := by
  simp only [progress, same]

theorem progress_perm (same : l.Perm l') : parent.progress l = parent.progress l' := by
  have granted : (parent.granted l).Perm (parent.granted l') := same.filter _
  have signed (psu : Psu) :
      signedBy psu (parent.granted l) = signedBy psu (parent.granted l') := granted.any_eq
  simp only [progress, granted.isEmpty_eq, signed]

theorem progress_nil : parent.progress [] = .notStarted := rfl

theorem progress_eq_notStarted_iff : parent.progress l = .notStarted ↔ parent.granted l = [] := by
  simp only [progress]
  constructor
  · intro h
    split at h
    · next none => exact List.isEmpty_iff.mp none
    · split at h
      · cases h
      · split at h <;> cases h
  · intro none
    rw [if_pos (List.isEmpty_iff.mpr none)]

theorem progress_eq_incomplete_iff :
    parent.progress l = .incomplete ↔ parent.granted l ≠ [] ∧ parent.progress l ≠ .complete := by
  rw [Ne, ← progress_eq_notStarted_iff]
  cases parent.progress l <;> simp

theorem complete_of_subset (more : parent.granted l ⊆ parent.granted l')
    (h : parent.progress l = .complete) : parent.progress l' = .complete := by
  rw [progress_eq_complete_iff] at h ⊢
  obtain ⟨some, signed⟩ := h
  obtain ⟨a, ha⟩ := List.exists_mem_of_ne_nil _ some
  refine ⟨List.ne_nil_of_mem (more ha), fun several psu listed => ?_⟩
  obtain ⟨d, hd, same⟩ := signed several psu listed
  exact ⟨d, more hd, same⟩

theorem granted_alike (h : List.Forall₂ Authorisation.CountsLike l l') :
    List.Forall₂ Authorisation.CountsLike (parent.granted l) (parent.granted l') := by
  refine List.rel_filter (fun a b same => ?_) h
  dsimp only
  rw [same.parent, same.status]

theorem signedBy_alike (h : List.Forall₂ Authorisation.CountsLike l l') (psu : Psu) :
    signedBy psu l = signedBy psu l' := by
  unfold signedBy
  induction h with
  | nil => rfl
  | cons same rest ih => rw [List.any_cons, List.any_cons, same.psu, ih]

theorem progress_alike (h : List.Forall₂ Authorisation.CountsLike l l') :
    parent.progress l = parent.progress l' := by
  have granted : List.Forall₂ Authorisation.CountsLike (parent.granted l) (parent.granted l') :=
    granted_alike h
  have same : (parent.granted l).isEmpty = (parent.granted l').isEmpty := by
    rw [Bool.eq_iff_iff, List.isEmpty_iff_length_eq_zero, List.isEmpty_iff_length_eq_zero,
      granted.length_eq]
  simp only [progress, same, signedBy_alike granted]

end Parent

end StrongAuth
