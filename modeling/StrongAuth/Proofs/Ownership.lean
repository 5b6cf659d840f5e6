import StrongAuth.Proofs.Evidence

set_option autoImplicit false

namespace StrongAuth
open StrongAuth.Calendar StrongAuth.Backend

namespace Attempt

variable {a : Attempt} {p : Purpose} {site : Site Backend}

def IsWelcome (a : Attempt) (p : Purpose) (s : Backend) : Prop :=
  ∃ parent store, p.findParent s a.parentId = (.ok (some parent), store) ∧
    a.mayAuthorise parent = true

def Identifies (a : Attempt) (p : Purpose) (s : Backend) (next : Sca.Status) : Prop :=
  next = .received ∨ (a.psu.isEmpty = false ∧ (next = .failed ∨ a.IsWelcome p s))

theorem identify_identifies (live : a.status = .received) :
    a.Identifies p site.store (a.identify p site).1.status := by
  unfold identify
  split
  · exact .inl live
  · next named =>
    have given : a.psu.isEmpty = false := Bool.eq_false_iff.mpr named
    unfold withParent
    split
    · next parent store found =>
      dsimp only
      split
      · next welcome => exact .inr ⟨given, .inr ⟨parent, store, found, welcome⟩⟩
      · exact .inr ⟨given, .inl rfl⟩
    · exact .inl live
    · exact .inl live

theorem confirm_of_received (live : a.status = .received) (c : Config) (checker : CodeChecker) :
    (a.confirm c p checker site).1.status = .received := by
  unfold confirm
  rw [live]
  split
  · exact live
  · split
    · exact live
    · exact live

end Attempt

namespace Engine

variable {c : Config} {now : Instant} {site : Site Backend} {u : UpdateRequest} {n : Nat}
  {a : Authorisation} {o : Outcome} {after : Backend}

/-- An outcome is recorded as it is, or replaced by a refusal that changes no status. -/
theorem record_status (site : Site Backend) (p : Purpose) (a : Attempt) (o : Outcome) :
    (record site p a o).1.status = o.status ∨ (record site p a o).1.status = a.status := by
  unfold record
  split
  · exact .inl rfl
  · split
    · exact .inl rfl
    · exact .inr rfl

theorem advance_identifies {a : Attempt} (live : a.status = .received) (c : Config)
    (site : Site Backend) (p : Purpose) :
    a.Identifies p site.store (advance c site p a).1.status := by
  have recorded {o : Outcome} (site' : Site Backend) (h : a.Identifies p site.store o.status) :
      a.Identifies p site.store (record site' p a o).1.status := by
    rcases record_status site' p a o with same | still
    · rw [same]
      exact h
    · exact .inl (still.trans live)
  unfold advance
  split
  · exact recorded _ (.inl (Attempt.confirm_of_received live c _))
  · split
    · exact .inl live
    · have step : a.step c p site = a.identify p site := by
        rw [Attempt.step_eq_currentStep, Attempt.currentStep, live]
      rw [step]
      exact recorded _ (Attempt.identify_identifies live)

theorem Moved.identifies (h : Moved site now u (turn c now site u) n a o after)
    (live : a.status = .received) : (Attempt.of u a).Identifies a.purpose site.store o.status := by
  have answer := h.answer
  simp only [turn, update_of_admitted h.admitted, Except.ok.injEq] at answer
  rw [← answer]
  exact advance_identifies live c site a.purpose

def AllOwned (b : Backend) : Prop :=
  ∀ a ∈ b.records, a.status ≠ .received → a.psu.isEmpty = false

theorem Moved.owned (h : Moved site now u (turn c now site u) n a o after)
    (owned : a.status ≠ .received → a.psu.isEmpty = false) (beyond : o.status ≠ .received) :
    (a.updated u o).psu.isEmpty = false := by
  have given : (Attempt.of u a).psu.isEmpty = false := by
    by_cases live : a.status = .received
    · rcases h.identifies live with still | ⟨named, -⟩
      · exact absurd still beyond
      · exact named
    · exact Attempt.psu_given (owned live)
  rw [Authorisation.updated_psu]
  exact given

theorem next_allOwned (c : Config) (sound : site.store.IsSound) (h : AllOwned site.store)
    (e : Event) : AllOwned (next c site e).store := by
  intro a ha beyond
  cases origin_of_mem c sound ha with
  | old there => exact h a there beyond
  | new opened => exact absurd rfl beyond
  | @moved now u n stored o moved =>
    exact moved.owned (h stored (List.mem_of_getElem? moved.position)) beyond

theorem run_allOwned (c : Config) (fresh : site.store.isFresh = true) (events : List Event) :
    AllOwned (run c site events).store := by
  have start : AllOwned site.store := by
    intro a ha
    rw [records_of_isFresh fresh] at ha
    cases ha
  exact run_invariant c (P := fun _ s => AllOwned s.store) [] (isSound_of_isFresh fresh) events
    (fun _ _ e _ sound h => next_allOwned c sound h e) start

theorem run_owner (c : Config) (sound : site.store.IsSound)
    (there : site.store.records[n]? = some a) (given : a.psu.isEmpty = false)
    (events : List Event) :
    ∃ b, (run c site events).store.records[n]? = some b ∧ a.Becomes b ∧
      a.psu.isSame b.psu = true := by
  refine run_invariant c (P := fun _ s => ∃ b, s.store.records[n]? = some b ∧ a.Becomes b ∧
    a.psu.isSame b.psu = true) [] sound events ?_ ⟨a, there, .refl a, Psu.isSame_self given⟩
  rintro _ s e - sound' ⟨b, there', becomes, same⟩
  obtain ⟨d, there'', kept | ⟨now, u, o, rfl, rfl, moved⟩⟩ := record_cases c sound' there' e
  · rw [kept] at there''
    exact ⟨b, there'', becomes, same⟩
  · have step := moved.isSame (Psu.given_of_isSame same)
    exact ⟨_, there'', becomes.trans (Authorisation.becomes_updated moved.live u o),
      Psu.isSame_trans same step⟩

theorem context_isSame (sound : site.store.IsSound) (there : site.store.records[n]? = some a)
    (given : a.psu.isEmpty = false) {x : Bank.Exchange}
    (hx : x ∈ (turn c now site u).exchanges) (about : x.context.authorisationId = a.id) :
    x.context.psu.isSame a.psu = true := by
  obtain ⟨stored, admitted⟩ := admitted_of_mem hx
  obtain ⟨o, site', conducted, -⟩ := update_conducted c admitted
  obtain ⟨k, position, -⟩ := authorisation_ok sound admitted.found
  have context := conducted.transcript.context_of_mem hx
  rw [context] at about ⊢
  obtain rfl : k = n := sound.distinct.unique position there about
  obtain rfl := Option.some.inj (position.symm.trans there)
  change (Attempt.of u stored).psu.isSame stored.psu = true
  rw [Psu.isSame_comm]
  exact Attempt.psu_isSame admitted.owner given

/-- Along every run, an authorisation beyond `received` has a PSU. Once it has one, the ids of the
PSU never change again, whomever later updates name, and the bank hears of nobody else. -/
theorem owner_is_bound (c : Config) (site : Site Backend) (fresh : site.store.isFresh = true)
    (before after : List Event) {n : Nat} {a : Authorisation}
    (there : (run c site before).store.records[n]? = some a) :
    (a.status ≠ .received → a.psu.isEmpty = false) ∧
    (a.psu.isEmpty = false →
      (∃ b, (run c site (before ++ after)).store.records[n]? = some b ∧ b.id = a.id ∧
        b.psu.id = a.psu.id ∧ b.psu.corporateId = a.psu.corporateId) ∧
      ∀ t ∈ turns c (run c site before) after, ∀ x ∈ t.exchanges,
        x.context.authorisationId = a.id → x.context.psu.isSame a.psu = true) := by
  have sound := run_sound c (isSound_of_isFresh fresh) before
  refine ⟨run_allOwned c fresh before a (List.mem_of_getElem? there), fun given => ⟨?_, ?_⟩⟩
  · rw [run_append]
    obtain ⟨b, there', becomes, same⟩ := run_owner c sound there given after
    obtain ⟨-, id, corporateId⟩ := (Psu.isSame_iff a.psu b.psu).mp same
    exact ⟨b, there', becomes.id, id.symm, corporateId.symm⟩
  · intro t ht x hx about
    obtain ⟨early, now, u, late, rfl, rfl⟩ := exists_of_mem_turns ht
    obtain ⟨b, there', becomes, same⟩ := run_owner c sound there given early
    have told := context_isSame (run_sound c sound early) there' (Psu.given_of_isSame same) hx
      (about.trans becomes.id.symm)
    rw [Psu.isSame_comm] at same
    exact Psu.isSame_trans told same

theorem started_payment_keeps_owner :
    ∃ a b, (run {} Samples.site (Samples.started .initiation)).store.records[0]? = some a ∧
      a.status = .started ∧ a.psu.isEmpty = false ∧
      (run {} Samples.site (Samples.started .initiation ++ Samples.intrusion)).store.records[0]? =
        some b ∧
      b.id = a.id ∧ b.psu.id = a.psu.id ∧ b.psu.corporateId = a.psu.corporateId := by
  obtain ⟨owned, bound⟩ := owner_is_bound {} Samples.site rfl (Samples.started .initiation)
    Samples.intrusion (n := 0) rfl
  have given := owned (by decide)
  obtain ⟨⟨b, there, id, owner⟩, -⟩ := bound given
  exact ⟨_, b, rfl, rfl, given, there, id, owner⟩

end Engine

end StrongAuth
