import StrongAuth.Proofs.Engine.Changes
import StrongAuth.Samples

set_option autoImplicit false

namespace StrongAuth
open StrongAuth.Calendar StrongAuth.Backend

namespace Authorisation

/-- The same authorisation at a later time. -/
structure Becomes (a b : Authorisation) : Prop where
  id : b.id = a.id
  parentId : b.parentId = a.parentId
  purpose : b.purpose = a.purpose
  approach : b.approach = a.approach
  expiresAt : b.expiresAt = a.expiresAt
  version : a.version ≤ b.version
  terminal : a.status.isTerminal = true → b = a

namespace Becomes

theorem refl (a : Authorisation) : Becomes a a :=
  ⟨rfl, rfl, rfl, rfl, rfl, Int.le_refl _, fun _ => rfl⟩

theorem trans {a b d : Authorisation} (h : Becomes a b) (k : Becomes b d) : Becomes a d where
  id := k.id.trans h.id
  parentId := k.parentId.trans h.parentId
  purpose := k.purpose.trans h.purpose
  approach := k.approach.trans h.approach
  expiresAt := k.expiresAt.trans h.expiresAt
  version := Int.le_trans h.version k.version
  terminal ended := by
    have same := h.terminal ended
    rw [same] at k
    exact k.terminal ended

end Becomes

/-- One step of an authorisation, taken in an update that names it. -/
structure Steps (u : UpdateRequest) (a b : Authorisation) : Prop where
  named : u.authorisationId = a.id
  live : a.status.isTerminal = false
  becomes : Becomes a b
  version : b.version = a.version + 1
  status : a.status.permits b.status = true ∨
    (a.status = .methodSelected ∧ b.status = .finalised ∧
      ∃ code, u.code = some code ∧ code.isBlank = false)

theorem becomes_updated {a : Authorisation} (live : a.status.isTerminal = false)
    (u : UpdateRequest) (o : Outcome) : Becomes a (a.updated u o) := by
  refine ⟨rfl, rfl, rfl, rfl, rfl, ?_, ?_⟩
  · change a.version ≤ a.version + 1
    omega
  · intro ended
    rw [live] at ended
    cases ended

end Authorisation

namespace Engine

variable {c : Config} {now : Instant} {site : Site Backend} {n : Nat} {a : Authorisation}

theorem steps_of_moved {u : UpdateRequest} {t : Turn} {o : Outcome} {after : Backend}
    (sound : site.store.IsSound) (h : Moved site now u t n a o after) :
    Authorisation.Steps u a (a.updated u o) := by
  obtain ⟨m, there, named⟩ := authorisation_ok sound h.admitted.found
  refine ⟨named.symm, h.live, Authorisation.becomes_updated h.live u o, rfl, ?_⟩
  rcases h.transcript.moves h.live with permitted | ⟨before, finished, coded⟩
  · exact .inl permitted
  · exact .inr ⟨before, finished, Attempt.code_of_hasCode coded⟩

theorem next_record (c : Config) (sound : site.store.IsSound)
    (there : site.store.records[n]? = some a) (e : Event) :
    ∃ b, (next c site e).store.records[n]? = some b ∧
      (b = a ∨ ∃ now u, e = .update now u ∧ a.Steps u b) := by
  obtain ⟨b, after, same | ⟨now, u, o, rfl, rfl, moved⟩⟩ := record_cases c sound there e
  · exact ⟨b, after, .inl same⟩
  · exact ⟨_, after, .inr ⟨now, u, rfl, steps_of_moved sound moved⟩⟩

theorem run_record (c : Config) (sound : site.store.IsSound)
    (there : site.store.records[n]? = some a) (events : List Event) :
    ∃ b, (run c site events).store.records[n]? = some b ∧ a.Becomes b := by
  refine run_invariant c (P := fun _ s => ∃ b, s.store.records[n]? = some b ∧ a.Becomes b)
    [] sound events ?_ ⟨a, there, .refl a⟩
  rintro _ s e - sound' ⟨b, there', becomes⟩
  obtain ⟨d, there'', step⟩ := next_record c sound' there' e
  refine ⟨d, there'', becomes.trans ?_⟩
  rcases step with rfl | ⟨now, u, -, steps⟩
  · exact .refl d
  · exact steps.becomes

/-- All authorisations of payments have an approach that suits payments. -/
def SuitsPayments (b : Backend) : Prop :=
  ∀ a ∈ b.records, a.purpose.isPayment = true → a.approach.suitsPayments = true

theorem next_suitsPayments (c : Config) (sound : site.store.IsSound)
    (h : SuitsPayments site.store) (e : Event) : SuitsPayments (next c site e).store := by
  intro a ha sort
  cases origin_of_mem c sound ha with
  | old there => exact h a there sort
  | new opened => exact opened.approach sort
  | @moved now u m stored o moved => exact h stored (List.mem_of_getElem? moved.position) sort

theorem run_suitsPayments (c : Config) (sound : site.store.IsSound)
    (h : SuitsPayments site.store) (events : List Event) :
    SuitsPayments (run c site events).store := by
  refine run_invariant c (P := fun _ s => SuitsPayments s.store) [] sound events ?_ h
  intro _ s e _ sound' suits
  exact next_suitsPayments c sound' suits e

/-- From a store without authorisations on, whatever happens before, at and after some moment: no
payment is authorised by OAuth; an event takes at most one step of an authorisation; a write that
the store accepts raises one version by one; and later the authorisation is still the same one,
unchanged if its status was terminal. -/
theorem authorisation_lifecycle (c : Config) (site : Site Backend)
    (fresh : site.store.isFresh = true) (before after : List Event) {n : Nat} {a : Authorisation}
    (there : (run c site before).store.records[n]? = some a) :
    (a.purpose.isPayment = true → a.approach ≠ .oauth) ∧
    (∀ e, ∃ b, (next c (run c site before) e).store.records[n]? = some b ∧
      (b = a ∨ ∃ now u, e = .update now u ∧ a.Steps u b)) ∧
    (∀ id version u written store,
      Store.updateAuthorisation (run c site before).store id version u = (.ok written, store) →
      ∃ (m : Nat) (b : Authorisation), (run c site before).store.records[m]? = some b ∧
        b.id = id ∧ b.version = version ∧
        written.version = version + 1 ∧ store.records[m]? = some written) ∧
    ∃ b, (run c site (before ++ after)).store.records[n]? = some b ∧ a.Becomes b := by
  have sound := run_sound c (isSound_of_isFresh fresh) before
  refine ⟨?_, next_record c sound there, ?_, ?_⟩
  · have none : SuitsPayments site.store := by
      intro b hb
      rw [records_of_isFresh fresh] at hb
      cases hb
    intro sort oauth
    have suits := run_suitsPayments c (isSound_of_isFresh fresh) none before a
      (List.mem_of_getElem? there) sort
    rw [oauth] at suits
    cases suits
  · intro id version u written store accepted
    obtain ⟨⟨m, b, position, named, free, rfl, records⟩, -⟩ := updateAuthorisation_ok sound accepted
    have current : b.version = version := by
      unfold Store.writeConflict at free
      split at free
      · cases free
      · split at free
        · assumption
        · cases free
    have bound : m < (run c site before).store.records.length :=
      (List.getElem?_eq_some_iff.mp position).1
    refine ⟨m, b, position, named, current, ?_, ?_⟩
    · rw [Authorisation.apply_version, current]
    · rw [records, List.getElem?_set, if_pos rfl, if_pos bound]
  · rw [run_append]
    exact run_record c sound there after

theorem executed_authorisation_lifecycle :
    ∃ a b,
      (run {} Samples.site [Samples.opening .initiation "payment"]).store.records[0]? = some a ∧
      (run {} Samples.site Samples.executed).store.records[0]? = some b ∧
      a.status = .received ∧ b.status = .finalised ∧ a.approach ≠ .oauth ∧ a.Becomes b := by
  obtain ⟨suits, -, -, b, there, becomes⟩ := authorisation_lifecycle {} Samples.site rfl
    [Samples.opening .initiation "payment"] (Samples.signing .initiation "payment" "auth1")
    (n := 0) rfl
  refine ⟨_, b, rfl, there, rfl, ?_, suits rfl, becomes⟩
  have finalised : (run {} Samples.site Samples.executed).store.records[0]?.map
      (fun d => d.status) = some .finalised := rfl
  rw [Samples.executed, ← List.singleton_append, there] at finalised
  exact Option.some.inj finalised

end Engine

end StrongAuth
