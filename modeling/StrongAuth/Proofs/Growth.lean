import StrongAuth.Proofs.Membership
import StrongAuth.Proofs.Progress
import StrongAuth.Proofs.SingleGrant

set_option autoImplicit false

namespace StrongAuth
open StrongAuth.Backend

namespace Progress

def rank : Progress → Nat
  | .notStarted => 0
  | .incomplete => 1
  | .complete => 2

instance : LE Progress := ⟨fun g h => g.rank ≤ h.rank⟩

instance (g h : Progress) : Decidable (g ≤ h) := inferInstanceAs (Decidable (g.rank ≤ h.rank))

theorem notStarted_le (g : Progress) : .notStarted ≤ g := Nat.zero_le g.rank

theorem le_complete (g : Progress) : g ≤ .complete := by cases g <;> decide

theorem incomplete_le_iff {g : Progress} : .incomplete ≤ g ↔ g ≠ .notStarted := by
  cases g <;> decide

theorem le_antisymm {g h : Progress} (le : g ≤ h) (ge : h ≤ g) : g = h := by
  cases g <;> cases h <;> first | rfl | exact absurd le (by decide) | exact absurd ge (by decide)

end Progress

namespace Parent

variable {parent : Parent} {l l' : List Authorisation}

theorem progress_mono (more : parent.granted l ⊆ parent.granted l') :
    parent.progress l ≤ parent.progress l' := by
  cases before : parent.progress l with
  | notStarted => exact Progress.notStarted_le _
  | incomplete =>
    rw [Progress.incomplete_le_iff, Ne, progress_eq_notStarted_iff]
    intro none
    rw [none] at more
    exact (progress_eq_incomplete_iff.mp before).1 (List.eq_nil_of_subset_nil more)
  | complete =>
    rw [complete_of_subset more before]
    exact Progress.le_complete _

theorem progress_of_members (same : ∀ a, a ∈ parent.granted l ↔ a ∈ parent.granted l') :
    parent.progress l = parent.progress l' :=
  Progress.le_antisymm (progress_mono fun a => (same a).mp) (progress_mono fun a => (same a).mpr)

theorem granted_set {n : Nat} {a : Authorisation} (there : l[n]? = some a)
    (ungranted : a.status.isGranted = false) (b : Authorisation) :
    parent.granted l ⊆ parent.granted (l.set n b) := by
  intro x hx
  obtain ⟨mem, own, granted⟩ := mem_granted.mp hx
  refine mem_granted.mpr ⟨?_, own, granted⟩
  obtain ⟨m, position⟩ := List.getElem?_of_mem mem
  have elsewhere : n ≠ m := by
    rintro rfl
    obtain rfl := Option.some.inj (there.symm.trans position)
    rw [granted] at ungranted
    cases ungranted
  refine List.mem_of_getElem? (i := m) ?_
  rw [List.getElem?_set_ne elsewhere]
  exact position

theorem ne_incomplete_of_single (single : parent.multilevel = false) :
    parent.progress l ≠ .incomplete := by
  intro incomplete
  obtain ⟨some, unready⟩ := progress_eq_incomplete_iff.mp incomplete
  refine unready (progress_eq_complete_iff.mpr ⟨some, fun several => ?_⟩)
  rw [single] at several
  cases several

/-- How the progress of a parent depends on the list of authorisations. -/
structure ProgressGrows (parent : Parent) : Prop where
  members : ∀ l l' : List Authorisation, (∀ a, a ∈ l ↔ a ∈ l') →
    parent.progress l = parent.progress l'
  /-- Those of other parents do not count, and those that were not granted do not either. -/
  others : ∀ (l : List Authorisation) (keep : Authorisation → Bool),
    (∀ a ∈ l, a.parentId = parent.id → a.status.isGranted = true → keep a = true) →
      parent.progress (l.filter keep) = parent.progress l
  more : ∀ l l' : List Authorisation, l ⊆ l' → parent.progress l ≤ parent.progress l'
  /-- One that was not granted gives way to another one, such as itself with a status that grants. -/
  replaced : ∀ (l : List Authorisation) (n : Nat) (a b : Authorisation), l[n]? = some a →
    a.status.isGranted = false → parent.progress l ≤ parent.progress (l.set n b)
  single : parent.multilevel = false → ∀ l : List Authorisation, parent.progress l ≠ .incomplete

theorem progressGrows (parent : Parent) : parent.ProgressGrows where
  members l l' same := by
    refine progress_of_members fun a => ?_
    rw [mem_granted, mem_granted, same a]
  others l keep kept := by
    refine progress_of_members fun a => ?_
    rw [mem_granted, mem_granted, List.mem_filter]
    constructor
    · rintro ⟨⟨there, -⟩, own⟩
      exact ⟨there, own⟩
    · rintro ⟨there, own, granted⟩
      exact ⟨⟨there, kept a there own granted⟩, own, granted⟩
  more l l' more := by
    refine progress_mono fun a ha => ?_
    obtain ⟨there, own⟩ := mem_granted.mp ha
    exact mem_granted.mpr ⟨more there, own⟩
  replaced l n a b there ungranted := progress_mono (granted_set there ungranted b)
  single one l := ne_incomplete_of_single one

end Parent

namespace Engine

variable {c : Config} {site : Site Backend} {p : Purpose} {parent : Parent}

theorem granted_of_run (c : Config) (sound : site.store.IsSound) (events : List Event) :
    parent.granted (site.store.siblings parent.id p) ⊆
      parent.granted ((run c site events).store.siblings parent.id p) := by
  intro a ha
  obtain ⟨there, grant⟩ := mem_granted_siblings.mp ha
  obtain ⟨n, position⟩ := List.getElem?_of_mem there
  have still := run_granted c sound position grant events
  exact mem_granted_siblings.mpr ⟨List.mem_of_getElem? still, grant⟩

/-- For every parent, progress is a matter of who has signed: it grows with the list of authorisations
as `ProgressGrows` has it. And along every run, as long as a consent or payment has the same list of
PSUs, its progress never falls, be it towards its authorisation or its cancellation. -/
theorem progress_never_falls (c : Config) (site : Site Backend)
    (fresh : site.store.isFresh = true) (early late : List Event) :
    (∀ parent : Parent, parent.ProgressGrows) ∧
      ∀ (p : Purpose) (parent parent' : Parent), (run c site early).store.Holds p parent →
        (run c site (early ++ late)).store.Holds p parent' → parent'.id = parent.id →
          parent'.psus = parent.psus →
            parent.progress ((run c site early).store.siblings parent.id p) ≤
              parent'.progress ((run c site (early ++ late)).store.siblings parent'.id p) := by
  refine ⟨Parent.progressGrows, fun p parent parent' before after id psus => ?_⟩
  have sound : (run c site early).store.IsSound := run_sound c (isSound_of_isFresh fresh) early
  rw [run_append] at after ⊢
  have last := after.summary
  rw [id] at last
  have multilevel : parent'.multilevel = parent.multilevel := by
    rw [← parent'.summary_multilevel, ← parent.summary_multilevel]
    exact (multilevel_of_run c sound late before.summary last).symm
  rw [Parent.progress_congr id multilevel psus, id]
  exact Parent.progress_mono (granted_of_run c sound late)

theorem shared_payment_progress_grows :
    (Parent.payment { Samples.payment "payment" ["anna", "berta"] true with
        status := .patc }).progress ((run {} Samples.sharedSite
          (Samples.signature "anna" "auth1")).store.siblings "payment" .initiation) = .incomplete ∧
      .incomplete ≤ (Parent.payment { Samples.payment "payment" ["anna", "berta"] true with
        status := .acsp }).progress ((run {} Samples.sharedSite
          Samples.signedByAll).store.siblings "payment" .initiation) :=
  ⟨rfl, (progress_never_falls {} Samples.sharedSite rfl (Samples.signature "anna" "auth1")
    (Samples.signature "berta" "auth2")).2 .initiation
      (.payment { Samples.payment "payment" ["anna", "berta"] true with status := .patc })
      (.payment { Samples.payment "payment" ["anna", "berta"] true with status := .acsp })
      ⟨rfl, rfl⟩ ⟨rfl, rfl⟩ rfl rfl⟩

end Engine

end StrongAuth
