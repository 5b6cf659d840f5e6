import StrongAuth.Proofs.Progress
import StrongAuth.Samples

set_option autoImplicit false

namespace StrongAuth.Parent

variable {parent : Parent} {l : List Authorisation}

theorem granted_filter (parent : Parent) (keep : Authorisation → Bool) (l : List Authorisation) :
    parent.granted (l.filter keep) = (parent.granted l).filter keep := by
  unfold granted
  rw [List.filter_filter, List.filter_filter]
  exact List.filter_congr fun a _ => Bool.and_comm _ _

theorem exists_of_signedBy {psu : Psu} (h : signedBy psu l = true) :
    ∃ a ∈ l, a.psu.isSame psu = true := List.any_eq_true.mp h

theorem ne_nil_of_signedBy {psu : Psu} (h : signedBy psu l = true) : l ≠ [] := by
  obtain ⟨a, there, -⟩ := exists_of_signedBy h
  exact List.ne_nil_of_mem there

theorem signedBy_listed {psu : Psu} (listed : psu ∈ parent.psus) (l : List Authorisation) :
    signedBy psu (l.filter fun a => parent.lists a.psu) = signedBy psu l := by
  unfold signedBy
  rw [List.any_filter]
  refine congrArg l.any (funext fun a => ?_)
  cases same : a.psu.isSame psu with
  | false => rw [Bool.and_false]
  | true =>
    have own : parent.lists a.psu = true := by
      refine List.any_eq_true.mpr ⟨psu, listed, ?_⟩
      rw [Psu.isSame_comm]
      exact same
    rw [own, Bool.and_true]

structure CountsListed (parent : Parent) (l : List Authorisation) : Prop where
  notStarted : parent.progress l = .notStarted ↔
    ∀ psu ∈ parent.psus, signedBy psu (parent.granted l) = false
  incomplete : parent.progress l = .incomplete ↔
    (∃ psu ∈ parent.psus, signedBy psu (parent.granted l) = true) ∧
      ∃ psu ∈ parent.psus, signedBy psu (parent.granted l) = false
  complete : parent.progress l = .complete ↔
    ∀ psu ∈ parent.psus, signedBy psu (parent.granted l) = true
  joined : parent.progress (l.filter fun a => parent.lists a.psu) = parent.progress l

section Several
variable (several : parent.multilevel = true) (listed : parent.psus ≠ [])
include several listed

theorem complete_iff_signedByAll : parent.progress l = .complete ↔
    ∀ psu ∈ parent.psus, signedBy psu (parent.granted l) = true := by
  rw [progress_eq_complete_iff]
  constructor
  · rintro ⟨-, signed⟩ psu there
    exact List.any_eq_true.mpr (signed several psu there)
  · intro signed
    obtain ⟨psu, there⟩ := List.exists_mem_of_ne_nil _ listed
    exact ⟨ne_nil_of_signedBy (signed psu there), fun _ psu there =>
      exists_of_signedBy (signed psu there)⟩

theorem incomplete_of_unsigned (some : parent.granted l ≠ [])
    (unsigned : ∀ psu ∈ parent.psus, signedBy psu (parent.granted l) = false) :
    parent.progress l = .incomplete := by
  refine progress_eq_incomplete_iff.mpr ⟨some, fun complete => ?_⟩
  obtain ⟨psu, there⟩ := List.exists_mem_of_ne_nil _ listed
  have signed := (complete_iff_signedByAll several listed).mp complete psu there
  rw [unsigned psu there] at signed
  cases signed

theorem countsListed_of_nil (none : parent.granted l = []) : parent.CountsListed l := by
  have start : parent.progress l = .notStarted := progress_eq_notStarted_iff.mpr none
  have start' : parent.progress (l.filter fun a => parent.lists a.psu) = .notStarted := by
    rw [progress_eq_notStarted_iff, granted_filter, none]
    rfl
  have unsigned : ∀ psu ∈ parent.psus, signedBy psu (parent.granted l) = false := by
    intro psu _
    rw [none]
    rfl
  refine ⟨⟨fun _ => unsigned, fun _ => start⟩, ?_, complete_iff_signedByAll several listed,
    start'.trans start.symm⟩
  constructor
  · intro incomplete
    rw [start] at incomplete
    cases incomplete
  · rintro ⟨⟨psu, there, signed⟩, -⟩
    rw [unsigned psu there] at signed
    cases signed

theorem countsListed_of_signed {psu : Psu} (there : psu ∈ parent.psus)
    (signed : signedBy psu (parent.granted l) = true) : parent.CountsListed l := by
  have some : parent.granted l ≠ [] := ne_nil_of_signedBy signed
  have complete := complete_iff_signedByAll (l := l) several listed
  refine ⟨?_, ?_, complete, ?_⟩
  · refine ⟨fun start => absurd (progress_eq_notStarted_iff.mp start) some, fun unsigned => ?_⟩
    rw [unsigned psu there] at signed
    cases signed
  · rw [progress_eq_incomplete_iff]
    constructor
    · rintro ⟨-, others⟩
      simp only [Ne, complete, not_forall, Bool.not_eq_true, exists_prop] at others
      obtain ⟨other, listed', unsigned⟩ := others
      exact ⟨⟨psu, there, signed⟩, other, listed', unsigned⟩
    · rintro ⟨-, other, listed', unsigned⟩
      refine ⟨some, fun all => ?_⟩
      rw [complete.mp all other listed'] at unsigned
      cases unsigned
  · -- Among the listed ones the same PSUs have signed, and one of them at least.
    have same (psu : Psu) (listed' : psu ∈ parent.psus) :
        signedBy psu (parent.granted (l.filter fun a => parent.lists a.psu)) =
          signedBy psu (parent.granted l) := by
      rw [granted_filter]
      exact signedBy_listed listed' _
    have some' : parent.granted (l.filter fun a => parent.lists a.psu) ≠ [] :=
      ne_nil_of_signedBy ((same psu there).trans signed)
    have all : parent.progress (l.filter fun a => parent.lists a.psu) = .complete ↔
        parent.progress l = .complete := by
      rw [complete, complete_iff_signedByAll several listed]
      exact forall₂_congr fun psu listed' => by rw [same psu listed']
    by_cases ready : parent.progress l = .complete
    · rw [ready, all.mpr ready]
    · rw [progress_eq_incomplete_iff.mpr ⟨some, ready⟩,
        progress_eq_incomplete_iff.mpr ⟨some', fun ready' => ready (all.mp ready')⟩]

end Several

/-- A parent that needs several PSUs is complete if and only if all of those it lists have signed. Its
progress counts them and nobody else if and only if none was granted at all, or one of them has
signed. Otherwise it is on its way although none of them has. -/
theorem counts_listed_iff (parent : Parent) (several : parent.multilevel = true)
    (listed : parent.psus ≠ []) (l : List Authorisation) :
    (parent.progress l = .complete ↔
      ∀ psu ∈ parent.psus, signedBy psu (parent.granted l) = true) ∧
    (parent.CountsListed l ↔ parent.granted l = [] ∨
      ∃ psu ∈ parent.psus, signedBy psu (parent.granted l) = true) ∧
    (parent.granted l ≠ [] → (∀ psu ∈ parent.psus, signedBy psu (parent.granted l) = false) →
      parent.progress l = .incomplete) := by
  refine ⟨complete_iff_signedByAll several listed, ⟨fun counts => ?_, ?_⟩,
    incomplete_of_unsigned several listed⟩
  · by_contra neither
    simp only [not_or, not_exists, not_and, Bool.not_eq_true] at neither
    have start := counts.notStarted.mpr neither.2
    exact neither.1 (progress_eq_notStarted_iff.mp start)
  · rintro (none | ⟨psu, there, signed⟩)
    · exact countsListed_of_nil several listed none
    · exact countsListed_of_signed several listed there signed

theorem signed_payment_counts_listed :
    (Parent.payment (Samples.payment "payment" ["anna", "berta"] true)).CountsListed
      [Samples.granted "auth1" "carl", Samples.granted "auth2" "anna"] :=
  (counts_listed_iff (.payment (Samples.payment "payment" ["anna", "berta"] true)) rfl (by decide)
    _).2.1.mpr (.inr ⟨.named "anna", by decide, by decide⟩)

theorem joined_payment_incomplete :
    (∀ psu ∈ (Parent.payment (Samples.payment "payment" ["anna", "berta"] true)).psus,
        signedBy psu ((Parent.payment (Samples.payment "payment" ["anna", "berta"] true)).granted
          [Samples.granted "auth1" "carl"]) = false) ∧
      (Parent.payment (Samples.payment "payment" ["anna", "berta"] true)).progress
        [Samples.granted "auth1" "carl"] = .incomplete ∧
      ¬(Parent.payment (Samples.payment "payment" ["anna", "berta"] true)).CountsListed
        [Samples.granted "auth1" "carl"] := by
  refine ⟨by decide, rfl, fun counts => ?_⟩
  have idle := counts.notStarted.mpr (by decide)
  exact nomatch (idle : Progress.incomplete = .notStarted)

end StrongAuth.Parent
