import StrongAuth.Proofs.Engine.Writes

set_option autoImplicit false

namespace StrongAuth
open StrongAuth.Calendar StrongAuth.Store

/-- What the attempt comes to is to be written: it is the owner's, of a live authorisation, and has a
code or the field that the step needs. -/
def Attempt.isDue (a : Attempt) (stored : Authorisation) : Bool :=
  !a.status.isTerminal && (a.foreignPsu stored).isNone && (a.hasCode || a.incomplete.isNone)

/-- The authorisation is the one that the update names, under its own parent and purpose. -/
structure Addressed {σ : Type} [Store σ] (s : σ) (u : UpdateRequest) (stored : Authorisation) :
    Prop where
  purpose : u.address.purpose? = some stored.purpose
  found : Store.authorisation s u.authorisationId = .ok (some stored)
  parent : stored.parentId = u.parentId

namespace Engine

/-- The answer to an update of this authorisation, the site after it, and the writes that were asked
for. -/
inductive Handled {σ : Type} [Store σ] (site : Site σ) (u : UpdateRequest)
    (stored : Authorisation) : Outcome → Site σ → List Operation → Prop where
  | idle {m : TppMessage} (idle : (Attempt.of u stored).isDue stored = false) :
      Handled site u stored ((Attempt.of u stored).reject m) site []
  | written {o : Outcome} {looked : List Operation} {a : Authorisation} {after : Site σ}
      (due : (Attempt.of u stored).isDue stored = true)
      (lookup : looked = [] ∨ looked = stored.purpose.lookupWrites site.store stored.parentId)
      (wrote : Store.updateAuthorisation (performed site.store looked) stored.id stored.version
        (stored.purpose.updateOf (.of u stored) o) = (.ok a, after.store)) :
      Handled site u stored o after (looked ++
        [.updateAuthorisation stored.id stored.version (stored.purpose.updateOf (.of u stored) o)])
  | refused {o : Outcome} {looked : List Operation} {e : StoreError} {after : Site σ}
      (due : (Attempt.of u stored).isDue stored = true)
      (lookup : looked = [] ∨ looked = stored.purpose.lookupWrites site.store stored.parentId)
      (wrote : Store.updateAuthorisation (performed site.store looked) stored.id stored.version
        (stored.purpose.updateOf (.of u stored) o) = (.error e, after.store)) :
      Handled site u stored ((Attempt.of u stored).rejectStore e) after (looked ++
        [.updateAuthorisation stored.id stored.version (stored.purpose.updateOf (.of u stored) o)])

variable {σ : Type} [Store σ] {c : Config} {now : Instant} {site : Site σ} {u : UpdateRequest}
  {stored : Authorisation}

def noted (site : Site σ) : Site (Recorded site.store) :=
  { site with store := Recorded.start site.store }

theorem record_of_ok {p : Purpose} {a : Attempt} {o : Outcome} {written : Authorisation}
    {after : σ} (live : a.status.isTerminal = false)
    (wrote : Store.updateAuthorisation site.store a.authorisationId a.version (p.updateOf a o) =
      (.ok written, after)) : record site p a o = (o, { site with store := after }) := by
  simp only [record, live, Bool.false_eq_true, if_false, Purpose.persist, wrote]

theorem record_of_error {p : Purpose} {a : Attempt} {o : Outcome} {e : StoreError} {after : σ}
    (live : a.status.isTerminal = false)
    (wrote : Store.updateAuthorisation site.store a.authorisationId a.version (p.updateOf a o) =
      (.error e, after)) : record site p a o = (a.rejectStore e, { site with store := after }) := by
  simp only [record, live, Bool.false_eq_true, if_false, Purpose.persist, wrote]

theorem writes_of_record {base : σ} (site : Site (Recorded base)) (p : Purpose) {a : Attempt}
    (o : Outcome) (live : a.status.isTerminal = false) :
    (record site p a o).2.store.writes = site.store.writes ++
      [.updateAuthorisation a.authorisationId a.version (p.updateOf a o)] := by
  obtain ⟨-, noted⟩ := p.persist_recorded site.store a o
  unfold record
  rw [live]
  generalize p.persist site.store a o = persisted at noted
  obtain ⟨answer, after⟩ := persisted
  cases answer <;> exact noted

theorem record_handled {p : Purpose} {plain : Outcome × Site σ}
    {recorded : Outcome × Site (Recorded site.store)} (kind : stored.purpose = p)
    (due : (Attempt.of u stored).isDue stored = true)
    (looks : (Attempt.of u stored).LooksUp p (noted site) plain recorded) :
    Handled site u stored (record plain.2 p (.of u stored) plain.1).1
      (record plain.2 p (.of u stored) plain.1).2
      (record recorded.2 p (.of u stored) recorded.1).2.store.writes := by
  subst kind
  obtain ⟨looked, lookup, rfl, writes⟩ := looks
  have live : (Attempt.of u stored).status.isTerminal = false := by
    simp only [Attempt.isDue, Bool.and_eq_true, Bool.not_eq_true'] at due
    exact due.1.1
  have noted : recorded.2.store.writes = looked := writes
  have reached : recorded.2.store.store = performed site.store looked := by
    rw [← noted]
    exact recorded.2.store.replayed
  rw [writes_of_record recorded.2 stored.purpose recorded.1 live, noted]
  cases wrote : Store.updateAuthorisation recorded.2.plain.store stored.id stored.version
      (stored.purpose.updateOf (.of u stored) recorded.1) with
  | mk answer after =>
    cases answer with
    | ok a =>
      rw [record_of_ok live wrote]
      rw [Site.plain, reached] at wrote
      exact .written due lookup wrote
    | error e =>
      rw [record_of_error live wrote]
      rw [Site.plain, reached] at wrote
      exact .refused due lookup wrote

theorem advance_terminal (c : Config) (site : Site σ) (p : Purpose) {a : Attempt}
    (ended : a.status.isTerminal = true) :
    ∃ code text, advance c site p a = (a.rejectBusiness code text, site) := by
  unfold advance
  split
  · simp only [Attempt.confirm, ended, if_true, record]
    exact ⟨_, _, rfl⟩
  · split
    · next m lacking =>
      unfold Attempt.incomplete Attempt.missingField at lacking
      cases status : a.status <;> rw [status] at ended lacking <;> first
        | cases lacking
        | cases ended
    · have refused : a.step c p site = (a.refuse, site) := by
        rw [Attempt.step_eq_currentStep]
        unfold Attempt.currentStep
        cases status : a.status <;> first
          | rfl
          | (rw [status] at ended; cases ended)
      simp only [refused, record, ended, if_true]
      exact ⟨_, _, rfl⟩

theorem update_of_addressed (c : Config) (h : Addressed site.store u stored)
    (timely : stored.isExpired now = false) :
    update c now site u = match (Attempt.of u stored).foreignPsu stored with
      | some m => (.ok ((Attempt.of u stored).reject m), site)
      | none => (.ok (advance c site stored.purpose (.of u stored)).1,
          (advance c site stored.purpose (.of u stored)).2) := by
  have served := resolve_eq_ok_iff.mpr h.purpose
  have fits := findFor_eq_ok_iff.mpr ⟨h.found, h.parent, rfl⟩
  have early : (Attempt.of u stored).isExpired now = false := timely
  cases owner : (Attempt.of u stored).foreignPsu stored <;>
    simp only [update, served, fits, early, Bool.false_eq_true, if_false, owner]

/-- An update of an authorisation that is found and not expired is answered, with and without notes
of what it writes. -/
theorem update_handled (c : Config) (h : Addressed site.store u stored)
    (timely : stored.isExpired now = false) :
    ∃ o, (update c now site u).1 = .ok o ∧ Handled site u stored o (update c now site u).2
      (update c now (noted site) u).2.store.writes := by
  have h' : Addressed (noted site).store u stored := ⟨h.purpose, h.found, h.parent⟩
  rw [update_of_addressed c h timely, update_of_addressed c h' timely]
  cases owner : (Attempt.of u stored).foreignPsu stored with
  | some m =>
    refine ⟨_, rfl, .idle ?_⟩
    simp [Attempt.isDue, owner]
  | none =>
    refine ⟨_, rfl, ?_⟩
    cases ended : (Attempt.of u stored).status.isTerminal with
    | true =>
      have idle : (Attempt.of u stored).isDue stored = false := by simp [Attempt.isDue, ended]
      obtain ⟨_, _, plain⟩ := advance_terminal c site stored.purpose ended
      obtain ⟨_, _, noting⟩ := advance_terminal c (noted site) stored.purpose ended
      simp only [plain, noting]
      exact .idle idle
    | false =>
      unfold advance
      cases coded : (Attempt.of u stored).hasCode with
      | true =>
        have due : (Attempt.of u stored).isDue stored = true := by
          simp [Attempt.isDue, ended, owner, coded]
        exact record_handled rfl due (Attempt.confirm_looksUp c _)
      | false =>
        cases lacking : (Attempt.of u stored).incomplete with
        | some m => exact .idle (by simp [Attempt.isDue, ended, coded, lacking])
        | none =>
          have due : (Attempt.of u stored).isDue stored = true := by
            simp [Attempt.isDue, ended, owner, coded, lacking]
          exact record_handled rfl due (Attempt.step_looksUp c)

theorem update_unaddressed (c : Config)
    (h : ∀ stored, Addressed site.store u stored → stored.isExpired now = true) :
    ∃ e, update c now site u = (.error e, site) := by
  unfold update
  split
  · exact ⟨_, rfl⟩
  · next purpose served =>
    split
    · exact ⟨_, rfl⟩
    · next stored fits =>
      obtain ⟨found, parent, rfl⟩ := findFor_eq_ok_iff.mp fits
      have late : (Attempt.of u stored).isExpired now = true :=
        h stored ⟨resolve_eq_ok_iff.mp served, found, parent⟩
      simp only [late, if_true]
      exact ⟨_, rfl⟩

theorem addressed_of_answered {o : Outcome} (answered : (update c now site u).1 = .ok o) :
    ∃ stored, Addressed site.store u stored ∧ stored.isExpired now = false := by
  refine Classical.byContradiction fun none => ?_
  have late : ∀ stored, Addressed site.store u stored → stored.isExpired now = true :=
    fun stored addressed => Bool.of_not_eq_false fun timely => none ⟨stored, addressed, timely⟩
  obtain ⟨e, refused⟩ := update_unaddressed c late
  rw [refused] at answered
  cases answered

theorem update_outcomes (c : Config) (now : Instant) (site : Site σ) (u : UpdateRequest) :
    (∃ e, update c now site u = (.error e, site) ∧
      (update c now (noted site) u).2.store.writes = []) ∨
    ∃ stored o, Addressed site.store u stored ∧ stored.isExpired now = false ∧
      (update c now site u).1 = .ok o ∧ Handled site u stored o (update c now site u).2
        (update c now (noted site) u).2.store.writes := by
  by_cases h : ∃ stored, Addressed site.store u stored ∧ stored.isExpired now = false
  · obtain ⟨stored, addressed, timely⟩ := h
    obtain ⟨o, answer, handled⟩ := update_handled c addressed timely
    exact .inr ⟨stored, o, addressed, timely, answer, handled⟩
  · have late : ∀ stored, Addressed site.store u stored → stored.isExpired now = true := by
      intro stored addressed
      refine Bool.of_not_eq_false fun timely => h ⟨stored, addressed, timely⟩
    have late' : ∀ stored, Addressed (noted site).store u stored →
        stored.isExpired now = true :=
      fun stored addressed => late stored ⟨addressed.purpose, addressed.found, addressed.parent⟩
    obtain ⟨e, plain⟩ := update_unaddressed c late
    obtain ⟨_, noting⟩ := update_unaddressed c late'
    refine .inl ⟨e, plain, ?_⟩
    rw [noting]
    rfl

end Engine

end StrongAuth
