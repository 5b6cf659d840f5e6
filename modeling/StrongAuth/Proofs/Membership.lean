import StrongAuth.Proofs.Ownership

set_option autoImplicit false

namespace StrongAuth
open StrongAuth.Calendar StrongAuth.Backend

theorem Psu.any_isSame_trans {psus : List Psu} {p q : Psu} (h : psus.any (·.isSame p) = true)
    (same : p.isSame q = true) : psus.any (·.isSame q) = true := by
  rw [List.any_eq_true] at h ⊢
  obtain ⟨r, hr, person⟩ := h
  exact ⟨r, hr, Psu.isSame_trans person same⟩

structure Backend.Holds (b : Backend) (p : Purpose) (parent : Parent) : Prop where
  summary : b.summary? p parent.id = some parent.summary
  psus : parent.psus = b.psusOf p parent.id

theorem Attempt.listed_of_isWelcome {a : Attempt} {p : Purpose} {b : Backend} {psus : List Psu}
    (h : a.IsWelcome p b)
    (single : ∀ m, b.summary? p a.parentId = some m → m.multilevel = false)
    (kept : (b.summary? p a.parentId).isSome = true → b.psusOf p a.parentId = psus)
    (listed : psus ≠ []) : psus.any (·.isSame a.psu) = true := by
  obtain ⟨parent, store, found, welcome⟩ := h
  obtain ⟨-, summary, list, -⟩ := Purpose.findParent_ok found
  have keeps := Purpose.findParent_keeps found
  rw [keeps.summary] at summary
  rw [keeps.lists, kept (by rw [summary]; rfl)] at list
  have alone : parent.multilevel = false := by
    have one := single _ summary
    cases parent <;> exact one
  have some : parent.psus.isEmpty = false := by
    rw [list]
    exact List.isEmpty_eq_false_iff.mpr listed
  rw [Attempt.mayAuthorise, some, alone, Bool.false_or, Bool.or_false, Parent.lists, list] at welcome
  exact welcome

namespace Engine

variable {c : Config} {site : Site Backend} {p : Purpose} {i : String} {psus : List Psu}

/-- As long as the parent is stored in the course of the run, these are the PSUs that it lists. -/
def KeepsList (c : Config) (site : Site Backend) (events : List Event) (p : Purpose) (i : String)
    (psus : List Psu) : Prop :=
  ∀ early late, events = early ++ late → ((run c site early).store.summary? p i).isSome = true →
    (run c site early).store.psusOf p i = psus

theorem keepsList_iff {events : List Event} : KeepsList c site events p i psus ↔
    ∀ k, k < events.length + 1 →
      ((run c site (events.take k)).store.summary? p i).isSome = true →
      (run c site (events.take k)).store.psusOf p i = psus := by
  constructor
  · intro h k _
    exact h (events.take k) (events.drop k) (List.take_append_drop k events).symm
  · rintro h early late rfl
    have here := h early.length (by rw [List.length_append]; omega)
    rw [List.take_left] at here
    exact here

instance (events : List Event) : Decidable (KeepsList c site events p i psus) :=
  decidable_of_iff _ keepsList_iff.symm

theorem KeepsList.here {events : List Event} (h : KeepsList c site events p i psus)
    (there : (site.store.summary? p i).isSome = true) : site.store.psusOf p i = psus :=
  h [] events rfl there

theorem KeepsList.tail {e : Event} {events : List Event}
    (h : KeepsList c site (e :: events) p i psus) : KeepsList c (next c site e) events p i psus := by
  rintro early late rfl there
  exact h (e :: early) late rfl there

/-- Whoever got beyond `received` with the parent, and was not turned away, is one of these PSUs. -/
def AllListed (p : Purpose) (i : String) (psus : List Psu) (b : Backend) : Prop :=
  ∀ a ∈ b.records, Store.isSibling i p a = true → a.status ≠ .received → a.status ≠ .failed →
    psus.any (·.isSame a.psu) = true

theorem next_allListed (c : Config) (sound : site.store.IsSound) (e : Event)
    (single : ∀ m, site.store.summary? p i = some m → m.multilevel = false)
    (kept : (site.store.summary? p i).isSome = true → site.store.psusOf p i = psus)
    (listed : psus ≠ []) (h : AllListed p i psus site.store) :
    AllListed p i psus (next c site e).store := by
  intro a ha sibling beyond live
  cases origin_of_mem c sound ha with
  | old there => exact h a there sibling beyond live
  | new opened => exact absurd rfl beyond
  | @moved now u n stored o moved =>
    have here : stored.parentId = i ∧ stored.purpose = p := by
      simpa [Store.isSibling, Authorisation.updated, Authorisation.apply] using sibling
    obtain ⟨rfl, rfl⟩ := here
    by_cases early : stored.status = .received
    · rcases moved.identifies early with still | ⟨named, failed | welcome⟩
      · exact absurd still beyond
      · exact absurd failed live
      · rw [Authorisation.updated_psu]
        exact Attempt.listed_of_isWelcome welcome single kept listed
    · have alive : stored.status ≠ .failed := by
        intro failed
        have ongoing := moved.live
        rw [failed] at ongoing
        cases ongoing
      have before := h stored (List.mem_of_getElem? moved.position) sibling early alive
      obtain ⟨q, -, person⟩ := List.any_eq_true.mp before
      exact Psu.any_isSame_trans before (moved.isSame (Psu.given_of_isSame person))

theorem run_allListed (c : Config) (sound : site.store.IsSound) (events : List Event)
    (single : ∀ m, (run c site events).store.summary? p i = some m → m.multilevel = false)
    (kept : KeepsList c site events p i psus) (listed : psus ≠ [])
    (h : AllListed p i psus site.store) : AllListed p i psus (run c site events).store := by
  induction events generalizing site with
  | nil => exact h
  | cons e events ih =>
    have alone (m : Parent.Summary) (there : site.store.summary? p i = some m) :
        m.multilevel = false := by
      obtain ⟨m', there', same⟩ := run_multilevel c sound (e :: events) there
      exact same.symm.trans (single m' there')
    exact ih ((change_of_next c sound e).sound sound) single kept.tail
      (next_allListed c sound e alone kept.here listed h)

/-- Along every run in which a single-level consent or payment keeps its list of PSUs, and the list is
not empty: every authorisation of it that got beyond `received` and did not fail belongs to a PSU
of the list, whatever updates it took. -/
theorem authorised_by_listed (c : Config) (site : Site Backend) (fresh : site.store.isFresh = true)
    (events : List Event) {a : Authorisation} {parent : Parent}
    (ha : a ∈ (run c site events).store.records) (child : a.parentId = parent.id)
    (there : (run c site events).store.Holds a.purpose parent)
    (kept : KeepsList c site events a.purpose parent.id parent.psus)
    (single : parent.multilevel = false) (listed : parent.psus ≠ []) (beyond : a.status ≠ .received)
    (live : a.status ≠ .failed) : parent.lists a.psu = true := by
  have start : AllListed a.purpose parent.id parent.psus site.store := by
    intro b hb
    rw [records_of_isFresh fresh] at hb
    cases hb
  have sibling : Store.isSibling parent.id a.purpose a = true := by
    simp [Store.isSibling, child]
  refine run_allListed c (isSound_of_isFresh fresh) events ?_ kept listed start a ha sibling beyond
    live
  intro m summary
  rw [there.summary] at summary
  obtain rfl := Option.some.inj summary
  cases parent <;> exact single

theorem executed_payment_authorised_by_listed :
    ∃ a ∈ (run {} Samples.site Samples.executed).store.records, a.status = .finalised ∧
      (Parent.payment { Samples.payment "payment" ["anna"] false with status := .acsp }).lists
        a.psu = true :=
  ⟨_, List.mem_of_getElem? (i := 0) rfl, rfl,
    authorised_by_listed {} Samples.site rfl Samples.executed (List.mem_of_getElem? (i := 0) rfl)
      rfl ⟨rfl, rfl⟩ (by decide) rfl (by decide) (by decide) (by decide)⟩

end Engine

end StrongAuth
